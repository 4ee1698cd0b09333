import AzHop.Nsg
import AzHop.Lib.Objects
/-!
# The Terraform locals

`variables_local.tf` derives the switches of the root module from the same
configuration file, mostly through `try`, so that an absent section gives the
default. Here are the switches, the subnets and security groups, and the rules
of `nsg-common` with the subnets it is attached to.

The address prefixes of a subnet are read back from Azure: they are the
parameter `prefixes`.
-/
namespace AzHop.Terraform
open Lib.Objects Direction Access RuleProtocol

/-! ## Switches -/

/-- The domain controllers are ones that exist already. -/
def use_existing_ad (c : AzhopConfig) : Bool := (c.domain.bind (·.use_existing_dc)).getD false

/-- A domain controller is deployed: none exists, and users are not local ones. -/
def create_ad (c : AzhopConfig) : Bool :=
  !use_existing_ad c && (c.authentication.bind (·.user_auth)).getD .ad = .ad

/-- `private_dns.tf` writes records for the domain controllers. -/
def create_dns_records (c : AzhopConfig) : Bool := create_ad c || use_existing_ad c

/-- There are two domain controllers. -/
def ad_ha (c : AzhopConfig) : Bool := (c.ad.bind (·.high_availability)).getD false

/-- `private_dns.create`. -/
def create_private_dns (c : AzhopConfig) : Bool := (c.private_dns.map (·.create)).getD false

/-- `monitoring.grafana`: Grafana is deployed unless it is switched off. -/
def create_grafana (c : AzhopConfig) : Bool := (c.monitoring.bind (·.grafana)).getD true

/-- `length(ondemand) > 0`: `vm_size` is required, so a section is not empty. -/
def create_ondemand (c : AzhopConfig) : Bool := c.ondemand.isSome

/-- `anf.create`. -/
def create_anf (c : AzhopConfig) : Bool := (c.anf.map (·.create)).getD false

/-- `azurefiles.create`. -/
def create_nfsfiles (c : AzhopConfig) : Bool := (c.azurefiles.map (·.create)).getD false

/-- `mounts.home.type`. -/
def homedir_type (c : AzhopConfig) : HomeType := c.mounts.home.type.getD .existing

/-- `image_gallery.create`. -/
def create_sig (c : AzhopConfig) : Bool := (c.image_gallery.map (·.create)).getD false

/-- AMLFS is not implemented here. -/
def lustre_enabled : Bool := false

/-- There is a section `jumpbox`. -/
def jumpbox_enabled (c : AzhopConfig) : Bool := c.jumpbox.isSome

/-- `length(database.fqdn) > 0`. -/
def use_existing_database (c : AzhopConfig) : Bool :=
  match c.database.bind (·.fqdn) with
  | some fqdn => 0 < fqdn.length
  | none => false

/-- Slurm keeps its accounts in a database that is deployed here. -/
def create_database (c : AzhopConfig) : Bool :=
  (c.slurm.map (·.accounting_enabled)).getD false && !use_existing_database c

/-- `length(network.vnet.id) > 0 ? false : true`. -/
def create_vnet (c : AzhopConfig) : Bool :=
  match c.network.vnet.id with
  | some id => id.length = 0
  | none => true

/-- The entries of `network.peering`. -/
def vnet_peering (c : AzhopConfig) : List Peering := c.network.peering.getD []

/-- `locked_down_network.enforce`. -/
def locked_down_network (c : AzhopConfig) : Bool := (c.locked_down_network.bind (·.enforce)).getD false

/-- The addresses that keep access in a locked down network. -/
def grant_access_from (c : AzhopConfig) : List String := (c.locked_down_network.bind (·.grant_access_from)).getD []

/-- `locked_down_network.public_ip`: allowed when the section is absent. -/
def allow_public_ip (c : AzhopConfig) : Bool := (c.locked_down_network.map (·.public_ip)).getD true

/-- The port of the rule for ssh from outside. -/
def jumpbox_ssh_port (c : AzhopConfig) : Int := (c.jumpbox.bind (·.ssh_port)).getD 22

/-- `nat_gateway.create`. -/
def create_nat_gateway (c : AzhopConfig) : Bool := (c.nat_gateway.map (·.create)).getD false

/-- `network.create_nsg`: as the vnet is, by default. -/
def create_nsg (c : AzhopConfig) : Bool := c.network.create_nsg.getD (create_vnet c)

/-! ## Subnets -/

/-- The section of a subnet in the configuration. -/
def section? (c : AzhopConfig) (k : SubnetKey) : Option SubnetClass := c.network.vnet.subnets.get? k

/-- `length(subnet) > 0 ? false : true`: no section, or a section without properties. -/
def noSubnet (c : AzhopConfig) (k : SubnetKey) : Bool :=
  match section? c k with
  | some s => !(s.name.isSome || s.address_prefixes.isSome || s.create.isSome)
  | none => true

/-- `create` of the section of a subnet. -/
def createSubnet (c : AzhopConfig) (k : SubnetKey) (default : Bool) : Bool :=
  ((section? c k).bind (·.create)).getD default

/-- The subnet of the web servers and the jumpbox. -/
def create_frontend_subnet (c : AzhopConfig) : Bool := createSubnet c .frontend (create_vnet c)

/-- The subnet of the scheduler, CycleCloud and Grafana. -/
def create_admin_subnet (c : AzhopConfig) : Bool := createSubnet c .admin (create_vnet c)

/-- The subnet delegated to the file shares. -/
def create_netapp_subnet (c : AzhopConfig) : Bool := createSubnet c .netapp (create_vnet c)

/-- The subnet of the nodes CycleCloud starts. -/
def create_compute_subnet (c : AzhopConfig) : Bool := createSubnet c .compute (create_vnet c)

/-- The subnet of the domain controllers, by default only where they are deployed. -/
def create_ad_subnet (c : AzhopConfig) : Bool :=
  createSubnet c .ad (if create_ad c then create_vnet c else false)

/-- There is no bastion. -/
def no_bastion_subnet (c : AzhopConfig) : Bool := noSubnet c .bastion

/-- The subnet of the bastion. -/
def create_bastion_subnet (c : AzhopConfig) : Bool := createSubnet c .bastion (create_vnet c)

/-- There is no VPN gateway. -/
def no_gateway_subnet (c : AzhopConfig) : Bool := noSubnet c .gateway

/-- The subnet of the VPN gateway. -/
def create_gateway_subnet (c : AzhopConfig) : Bool := createSubnet c .gateway (create_vnet c)

/-- There is no subnet for the resolver that forwards DNS. -/
def no_outbounddns_subnet (c : AzhopConfig) : Bool := noSubnet c .outbounddns

/-- `create_vnet ? (no_subnet ? false : true) : false`. -/
def create_outbounddns_subnet (c : AzhopConfig) : Bool :=
  createSubnet c .outbounddns (if create_vnet c then !no_outbounddns_subnet c else false)

/-- There is no subnet for the database. -/
def no_database_subnet (c : AzhopConfig) : Bool := noSubnet c .database

/-- As for `outbounddns`. -/
def create_database_subnet (c : AzhopConfig) : Bool :=
  createSubnet c .database (if create_vnet c then !no_database_subnet c else false)

/-- The entries of `dns.forwarders`. -/
def dns_forwarders (c : AzhopConfig) : List (String × String) := (c.dns.map (·.forwarders)).getD []

/-- `length(dns_forwarders) > 0`. -/
def create_dnsfw_rules (c : AzhopConfig) : Bool := 0 < (dns_forwarders c).length

/-- `_subnets`. -/
def defaultSubnets : List (SubnetKey × String) :=
  [(.frontend, "frontend"), (.admin, "admin"), (.netapp, "netapp"), (.compute, "compute"), (.ad, "ad")]

/-- The keys of `data.azurerm_subnet.subnets`, and their default names. -/
def subnets (c : AzhopConfig) : List (SubnetKey × String) :=
  unionAll
    [defaultSubnets,
     if no_bastion_subnet c then [] else [(.bastion, "AzureBastionSubnet")],
     if no_gateway_subnet c then [] else [(.gateway, "GatewaySubnet")],
     if no_outbounddns_subnet c then [] else [(.outbounddns, "outbounddns")],
     if no_database_subnet c then [] else [(.database, "database")]]

/-! ## Application security groups -/

/-- There is a domain controller, deployed or not. -/
def use_ad (c : AzhopConfig) : Bool := create_ad c || use_existing_ad c

/-- There is a database, deployed or not. -/
def use_database (c : AzhopConfig) : Bool := create_database c || use_existing_database c

/-- The security groups that are created when `network.asg` gives none. -/
def _default_asgs (c : AzhopConfig) : List (Asg × String) :=
  unionAll
    [[(.asg_ssh, "asg-ssh"), (.asg_jumpbox, "asg-jumpbox"), (.asg_sched, "asg-sched"), (.asg_cyclecloud, "asg-cyclecloud"),
      (.asg_cyclecloud_client, "asg-cyclecloud-client"), (.asg_nfs_client, "asg-nfs-client"),
      (.asg_deployer, "asg-deployer")],
     if use_ad c then [(.asg_ad, "asg-ad"), (.asg_ad_client, "asg-ad-client"), (.asg_rdp, "asg-rdp")] else [],
     if create_grafana c then [(.asg_telegraf, "asg-telegraf"), (.asg_grafana, "asg-grafana")] else [],
     if create_ondemand c then [(.asg_ondemand, "asg-ondemand")] else [],
     if lustre_enabled then [(.asg_lustre_client, "asg-lustre-client")] else [],
     if use_database c then [(.asg_mysql_client, "asg-mysql-client")] else []]

/-- The keys of `azurerm_application_security_group.asg`, and the groups' names. -/
def asgs (c : AzhopConfig) : List (Asg × String) :=
  match c.network.asg with
  | some a => a.names
  | none => _default_asgs c

/-! ## Rules -/

/-- The port lists, by the name the rows use. -/
def nsg_destination_ports (c : AzhopConfig) : List (PortKey × List PortRange) :=
  [(.All, [.span 0 65535]),
   (.Bastion, [.one 22, .one 3389]),
   (.Web, [.one 443, .one 80]),
   (.Ssh, [.one 22]),
   (.Public_Ssh, [.one (jumpbox_ssh_port c)]),
   (.DomainControlerTcp, [.one 53, .one 88, .one 135, .one 389, .one 445, .one 464, .one 636, .one 3268, .one 3269,
      .one 9389, .span 49152 65535]),
   (.DomainControlerUdp, [.one 53, .one 88, .one 123, .one 138, .one 389, .one 464, .one 636]),
   (.NoVnc, [.one 80, .one 443, .span 5900 5910, .span 61001 61010]),
   (.Dns, [.one 53]),
   (.Rdp, [.one 3389]),
   (.Sched, if c.queue_manager = "slurm" then [.span 6817 6819, .span 59000 61000]
      else [.one 6200, .span 15001 15009, .one 17001, .span 32768 61000]),
   (.Lustre, [.one 635, .one 988]),
   (.Nfs, [.one 111, .one 635, .one 2049, .one 4045, .one 4046]),
   (.SMB, [.one 445]),
   (.Telegraf, [.one 8086]),
   (.Grafana, [.one 3000]),
   (.CycleCloud, [.one 9443, .one 5672]),
   (.MySQL, [.one 3306, .one 33060]),
   (.WinRM, [.one 5985, .one 5986])]

/-- The rows of every deployment. -/
def _nsg_rules : Rows :=
  [("AllowSshFromJumpboxIn", ⟨320, Inbound, Allow, Tcp, .Ssh, .asg .asg_jumpbox, .asg .asg_ssh⟩),
   ("AllowSshFromComputeIn", ⟨330, Inbound, Allow, Tcp, .Ssh, .subnet .compute, .asg .asg_ssh⟩),
   ("AllowSshFromDeployerIn", ⟨340, Inbound, Allow, Tcp, .Ssh, .asg .asg_deployer, .asg .asg_ssh⟩),
   ("AllowDeployerToPackerSshIn", ⟨350, Inbound, Allow, Tcp, .Ssh, .asg .asg_deployer, .subnet .admin⟩),
   ("AllowSshToComputeIn", ⟨360, Inbound, Allow, Tcp, .Ssh, .asg .asg_ssh, .subnet .compute⟩),
   ("AllowAllComputeComputeIn", ⟨365, Inbound, Allow, Tcp, .All, .subnet .compute, .subnet .compute⟩),
   ("AllowSchedIn", ⟨369, Inbound, Allow, Any, .Sched, .asg .asg_sched, .asg .asg_sched⟩),
   ("AllowSchedComputeIn", ⟨380, Inbound, Allow, Any, .Sched, .asg .asg_sched, .subnet .compute⟩),
   ("AllowComputeSchedIn", ⟨400, Inbound, Allow, Any, .Sched, .subnet .compute, .asg .asg_sched⟩),
   ("AllowCycleClientIn", ⟨450, Inbound, Allow, Tcp, .CycleCloud, .asg .asg_cyclecloud_client, .asg .asg_cyclecloud⟩),
   ("AllowCycleClientComputeIn", ⟨460, Inbound, Allow, Tcp, .CycleCloud, .subnet .compute, .asg .asg_cyclecloud⟩),
   ("AllowCycleServerIn", ⟨465, Inbound, Allow, Tcp, .CycleCloud, .asg .asg_cyclecloud, .asg .asg_cyclecloud_client⟩),
   ("DenyVnetInbound", ⟨3100, Inbound, Deny, Any, .All, .tag .VirtualNetwork, .tag .VirtualNetwork⟩),
   ("AllowCycleServerOut", ⟨300, Outbound, Allow, Tcp, .CycleCloud, .asg .asg_cyclecloud, .asg .asg_cyclecloud_client⟩),
   ("AllowCycleClientOut", ⟨310, Outbound, Allow, Tcp, .CycleCloud, .asg .asg_cyclecloud_client, .asg .asg_cyclecloud⟩),
   ("AllowComputeCycleClientIn", ⟨320, Outbound, Allow, Tcp, .CycleCloud, .subnet .compute, .asg .asg_cyclecloud⟩),
   ("AllowSchedOut", ⟨340, Outbound, Allow, Any, .Sched, .asg .asg_sched, .asg .asg_sched⟩),
   ("AllowSchedComputeOut", ⟨360, Outbound, Allow, Any, .Sched, .asg .asg_sched, .subnet .compute⟩),
   ("AllowComputeSchedOut", ⟨370, Outbound, Allow, Any, .Sched, .subnet .compute, .asg .asg_sched⟩),
   ("AllowSshFromJumpboxOut", ⟨490, Outbound, Allow, Tcp, .Ssh, .asg .asg_jumpbox, .asg .asg_ssh⟩),
   ("AllowSshComputeOut", ⟨500, Outbound, Allow, Tcp, .Ssh, .asg .asg_ssh, .subnet .compute⟩),
   ("AllowSshDeployerOut", ⟨510, Outbound, Allow, Tcp, .Ssh, .asg .asg_deployer, .asg .asg_ssh⟩),
   ("AllowSshDeployerPackerOut", ⟨520, Outbound, Allow, Tcp, .Ssh, .asg .asg_deployer, .subnet .admin⟩),
   ("AllowSshFromComputeOut", ⟨530, Outbound, Allow, Tcp, .Ssh, .subnet .compute, .asg .asg_ssh⟩),
   ("AllowAllComputeComputeOut", ⟨540, Outbound, Allow, Tcp, .All, .subnet .compute, .subnet .compute⟩),
   ("AllowDnsOut", ⟨590, Outbound, Allow, Any, .Dns, .tag .VirtualNetwork, .tag .VirtualNetwork⟩),
   ("AllowInternetOutBound", ⟨3000, Outbound, Allow, Tcp, .All, .tag .VirtualNetwork, .tag .Internet⟩),
   ("DenyVnetOutbound", ⟨3100, Outbound, Deny, Any, .All, .tag .VirtualNetwork, .tag .VirtualNetwork⟩)]

/-- The rows for access from the internet. -/
def internet_nsg_rules : Rows :=
  [("AllowInternetSshIn", ⟨200, Inbound, Allow, Tcp, .Public_Ssh, .tag .Internet, .asg .asg_jumpbox⟩),
   ("AllowInternetHttpIn", ⟨210, Inbound, Allow, Tcp, .Web, .tag .Internet, .subnet .frontend⟩)]

/-- The rows for access from a hub network, where no public address is allowed. -/
def hub_nsg_rules : Rows :=
  [("AllowHubSshIn", ⟨200, Inbound, Allow, Tcp, .Public_Ssh, .tag .VirtualNetwork, .tag .VirtualNetwork⟩),
   ("AllowHubHttpIn", ⟨210, Inbound, Allow, Tcp, .Web, .tag .VirtualNetwork, .tag .VirtualNetwork⟩)]

/-- The rows between the domain controllers and their clients. -/
def ad_nsg_rules : Rows :=
  [("AllowAdServerTcpIn", ⟨220, Inbound, Allow, Tcp, .DomainControlerTcp, .dc, .asg .asg_ad_client⟩),
   ("AllowAdServerUdpIn", ⟨230, Inbound, Allow, Udp, .DomainControlerUdp, .dc, .asg .asg_ad_client⟩),
   ("AllowAdClientTcpIn", ⟨240, Inbound, Allow, Tcp, .DomainControlerTcp, .asg .asg_ad_client, .dc⟩),
   ("AllowAdClientUdpIn", ⟨250, Inbound, Allow, Udp, .DomainControlerUdp, .asg .asg_ad_client, .dc⟩),
   ("AllowAdServerComputeTcpIn", ⟨260, Inbound, Allow, Tcp, .DomainControlerTcp, .dc, .subnet .compute⟩),
   ("AllowAdServerComputeUdpIn", ⟨270, Inbound, Allow, Udp, .DomainControlerUdp, .dc, .subnet .compute⟩),
   ("AllowAdClientComputeTcpIn", ⟨280, Inbound, Allow, Tcp, .DomainControlerTcp, .subnet .compute, .dc⟩),
   ("AllowAdClientComputeUdpIn", ⟨290, Inbound, Allow, Udp, .DomainControlerUdp, .subnet .compute, .dc⟩),
   ("AllowAdServerNetappTcpIn", ⟨300, Inbound, Allow, Tcp, .DomainControlerTcp, .subnet .netapp, .dc⟩),
   ("AllowAdServerNetappUdpIn", ⟨310, Inbound, Allow, Udp, .DomainControlerUdp, .subnet .netapp, .dc⟩),
   ("AllowWinRMIn", ⟨520, Inbound, Allow, Tcp, .WinRM, .asg .asg_jumpbox, .asg .asg_rdp⟩),
   ("AllowRdpIn", ⟨550, Inbound, Allow, Tcp, .Rdp, .asg .asg_jumpbox, .asg .asg_rdp⟩),
   ("AllowPackerWinRMIn", ⟨560, Inbound, Allow, Tcp, .WinRM, .tag .VirtualNetwork, .subnet .compute⟩),
   ("AllowAdClientTcpOut", ⟨200, Outbound, Allow, Tcp, .DomainControlerTcp, .asg .asg_ad_client, .dc⟩),
   ("AllowAdClientUdpOut", ⟨210, Outbound, Allow, Udp, .DomainControlerUdp, .asg .asg_ad_client, .dc⟩),
   ("AllowAdClientComputeTcpOut", ⟨220, Outbound, Allow, Tcp, .DomainControlerTcp, .subnet .compute, .dc⟩),
   ("AllowAdClientComputeUdpOut", ⟨230, Outbound, Allow, Udp, .DomainControlerUdp, .subnet .compute, .dc⟩),
   ("AllowAdServerTcpOut", ⟨240, Outbound, Allow, Tcp, .DomainControlerTcp, .dc, .asg .asg_ad_client⟩),
   ("AllowAdServerUdpOut", ⟨250, Outbound, Allow, Udp, .DomainControlerUdp, .dc, .asg .asg_ad_client⟩),
   ("AllowAdServerComputeTcpOut", ⟨260, Outbound, Allow, Tcp, .DomainControlerTcp, .dc, .subnet .compute⟩),
   ("AllowAdServerComputeUdpOut", ⟨270, Outbound, Allow, Udp, .DomainControlerUdp, .dc, .subnet .compute⟩),
   ("AllowAdServerNetappTcpOut", ⟨280, Outbound, Allow, Tcp, .DomainControlerTcp, .dc, .subnet .netapp⟩),
   ("AllowAdServerNetappUdpOut", ⟨290, Outbound, Allow, Udp, .DomainControlerUdp, .dc, .subnet .netapp⟩),
   ("AllowRdpOut", ⟨570, Outbound, Allow, Tcp, .Rdp, .asg .asg_jumpbox, .asg .asg_rdp⟩),
   ("AllowWinRMOut", ⟨580, Outbound, Allow, Tcp, .WinRM, .asg .asg_jumpbox, .asg .asg_rdp⟩)]

/-- The rows of the bastion. -/
def bastion_nsg_rules : Rows :=
  [("AllowBastionIn", ⟨530, Inbound, Allow, Tcp, .Bastion, .subnet .bastion, .tag .VirtualNetwork⟩),
   ("AllowBastionOut", ⟨531, Outbound, Allow, Tcp, .Bastion, .subnet .bastion, .tag .VirtualNetwork⟩)]

/-- The rows of the VPN gateway. -/
def gateway_nsg_rules : Rows :=
  [("AllowInternalWebUsersIn", ⟨540, Inbound, Allow, Tcp, .Web, .subnet .gateway, .asg .asg_ondemand⟩)]

/-- The rows of Open OnDemand. -/
def ondemand_nsg_rules : Rows :=
  [("AllowCycleWebIn", ⟨440, Inbound, Allow, Tcp, .Web, .asg .asg_ondemand, .asg .asg_cyclecloud⟩),
   ("AllowComputeNoVncIn", ⟨470, Inbound, Allow, Tcp, .NoVnc, .subnet .compute, .asg .asg_ondemand⟩),
   ("AllowNoVncComputeIn", ⟨480, Inbound, Allow, Tcp, .NoVnc, .asg .asg_ondemand, .subnet .compute⟩),
   ("AllowCycleWebOut", ⟨330, Outbound, Allow, Tcp, .Web, .asg .asg_ondemand, .asg .asg_cyclecloud⟩),
   ("AllowComputeNoVncOut", ⟨550, Outbound, Allow, Tcp, .NoVnc, .subnet .compute, .asg .asg_ondemand⟩),
   ("AllowNoVncComputeOut", ⟨560, Outbound, Allow, Tcp, .NoVnc, .asg .asg_ondemand, .subnet .compute⟩)]

/-- The rows of Telegraf and Grafana. -/
def grafana_nsg_rules : Rows :=
  [("AllowTelegrafIn", ⟨490, Inbound, Allow, Tcp, .Telegraf, .asg .asg_telegraf, .asg .asg_grafana⟩),
   ("AllowComputeTelegrafIn", ⟨500, Inbound, Allow, Tcp, .Telegraf, .subnet .compute, .asg .asg_grafana⟩),
   ("AllowGrafanaIn", ⟨510, Inbound, Allow, Tcp, .Grafana, .asg .asg_ondemand, .asg .asg_grafana⟩),
   ("AllowTelegrafOut", ⟨460, Outbound, Allow, Tcp, .Telegraf, .asg .asg_telegraf, .asg .asg_grafana⟩),
   ("AllowComputeTelegrafOut", ⟨470, Outbound, Allow, Tcp, .Telegraf, .subnet .compute, .asg .asg_grafana⟩),
   ("AllowGrafanaOut", ⟨480, Outbound, Allow, Tcp, .Grafana, .asg .asg_ondemand, .asg .asg_grafana⟩)]

/-- The rows of the database. -/
def mysql_nsg_rules : Rows :=
  [("AllowMySQLIn", ⟨700, Inbound, Allow, Tcp, .MySQL, .asg .asg_mysql_client, .subnet .database⟩),
   ("AllowMySQLOut", ⟨700, Outbound, Allow, Tcp, .MySQL, .asg .asg_mysql_client, .subnet .database⟩)]

/-- The rows of the file shares. -/
def anf_nsg_rules : Rows :=
  [("AllowNfsIn", ⟨430, Inbound, Allow, Any, .Nfs, .asg .asg_nfs_client, .subnet .netapp⟩),
   ("AllowNfsComputeIn", ⟨435, Inbound, Allow, Any, .Nfs, .subnet .compute, .subnet .netapp⟩),
   ("AllowNfsOut", ⟨440, Outbound, Allow, Any, .Nfs, .asg .asg_nfs_client, .subnet .netapp⟩),
   ("AllowNfsComputeOut", ⟨450, Outbound, Allow, Any, .Nfs, .subnet .compute, .subnet .netapp⟩),
   ("AllowSMBComputeOut", ⟨455, Outbound, Allow, Any, .SMB, .subnet .compute, .subnet .netapp⟩)]

/-- The rows of Lustre. -/
def lustre_nsg_rules : Rows :=
  [("AllowLustreClientIn", ⟨410, Inbound, Allow, Tcp, .Lustre, .asg .asg_lustre_client, .subnet .admin⟩),
   ("AllowLustreClientComputeIn", ⟨420, Inbound, Allow, Tcp, .Lustre, .subnet .compute, .subnet .admin⟩),
   ("AllowLustreClientOut", ⟨400, Outbound, Allow, Tcp, .Lustre, .asg .asg_lustre_client, .subnet .admin⟩),
   ("AllowLustreClientComputeOut", ⟨420, Outbound, Allow, Tcp, .Lustre, .subnet .compute, .subnet .admin⟩)]

/-- The arguments of the `merge` that gives `nsg_rules`, with their conditions. -/
def nsgBlocks (c : AzhopConfig) : List (Bool × Rows) :=
  [(true, _nsg_rules),
   (use_ad c, ad_nsg_rules),
   (!no_bastion_subnet c, bastion_nsg_rules),
   (!no_gateway_subnet c, gateway_nsg_rules),
   (allow_public_ip c, internet_nsg_rules),
   (!allow_public_ip c, hub_nsg_rules),
   (create_grafana c, grafana_nsg_rules),
   (use_database c, mysql_nsg_rules),
   (create_ondemand c, ondemand_nsg_rules),
   (lustre_enabled, lustre_nsg_rules),
   (true, anf_nsg_rules)]

/-- The rows of a configuration, by their names. -/
def nsg_rules (c : AzhopConfig) : Rows := unionAll (gated (nsgBlocks c))

/-- The rows of all blocks. -/
def templateRows : Rows :=
  [_nsg_rules, ad_nsg_rules, bastion_nsg_rules, gateway_nsg_rules, internet_nsg_rules, hub_nsg_rules,
    grafana_nsg_rules, mysql_nsg_rules, ondemand_nsg_rules, lustre_nsg_rules, anf_nsg_rules].flatten

set_option maxRecDepth 10000 in
theorem templateRows_names_nodup : (keys templateRows).Nodup := nodup_of_nameCode (by decide +kernel)

set_option maxRecDepth 10000 in
theorem templateRows_allowFirst : AllowFirst templateRows := by unfold AllowFirst; decide

/-- The rule table of `variables_local.tf`. -/
def template : Template AzhopConfig where
  blocks := nsgBlocks
  rows := templateRows
  rows_eq _ := rfl
  names_nodup := templateRows_names_nodup
  allow_first := templateRows_allowFirst

theorem mem_nsg_rules {c : AzhopConfig} {x : String × Row} :
    x ∈ nsg_rules c ↔ ∃ b ∈ nsgBlocks c, b.1 = true ∧ x ∈ b.2 :=
  template.mem_rules

theorem mem_templateRows {c : AzhopConfig} {x : String × Row} (h : x ∈ nsg_rules c) : x ∈ templateRows :=
  template.mem_rows h

theorem nsg_rules_allowFirst (c : AzhopConfig) : AllowFirst (nsg_rules c) := template.rules_allowFirst c

/-- `ips.dc_ips` with an existing domain controller. -/
def domain_controller_ips (c : AzhopConfig) : Option (List String) := do
  let domain ← c.domain
  let details ← domain.existing_dc_details
  details.domain_controller_ip_addresses

/-- What a side of a rule refers to. A subnet without an entry leaves the side
unset, which the provider rejects. -/
def resolve (c : AzhopConfig) (prefixes : SubnetKey → List String) : Side → Option Target
  | .asg a => if a ∈ keys (asgs c) then some (.asg a) else none
  | .tag t => some (.tag t)
  | .subnet k => if k ∈ keys (subnets c) then some (.prefixes (prefixes k)) else none
  | .dc =>
    if use_existing_ad c then (domain_controller_ips c).map .prefixes
    else if .asg_ad ∈ keys (asgs c) then some (.asg .asg_ad) else none

/-- The rule table of the locals. -/
def ruleTable (c : AzhopConfig) (prefixes : SubnetKey → List String) : Option (List SecurityRule) :=
  (nsg_rules c).mapM (securityRule (get? (nsg_destination_ports c)) (resolve c prefixes))

/-- The rules of `nsg-common`. -/
def securityRules (c : AzhopConfig) (prefixes : SubnetKey → List String) : Option (List SecurityRule) :=
  if create_nsg c then ruleTable c prefixes else some []

/-- The subnets with an `azurerm_subnet_network_security_group_association`. -/
def nsgAssociations (c : AzhopConfig) : List SubnetKey :=
  if create_nsg c then
    [.frontend, .compute, .admin, .database, .netapp] ++ (if create_ad c then [.ad] else []) ++
      (if no_bastion_subnet c then [] else [.bastion]) ++ if no_outbounddns_subnet c then [] else [.outbounddns]
  else []

end AzHop.Terraform
