import AzHop.Nsg
import AzHop.Lib.Objects
/-!
# The Bicep template

`azhop.bicep` derives one object from the configuration, with the subnets,
the VMs, the application security groups, the port lists and the rules it
emits, each under its own condition; `network.bicep` resolves the rules.

Reading a property a section does not have ends the deployment, so the
definitions that read optional sections return an `Option`. The fields of a
VM that name no other resource (images, disks, identities, scripts) are left
out.
-/
namespace AzHop.Bicep
open Lib.Objects Direction Access RuleProtocol

/-! ## Variables -/

/-- The variables at the head of the template. -/
structure Vars where
  enablePublicIP : Bool
  incomingSSHPort : Int
  deployLustre : Bool
  deployJumpbox : Bool
  deployDeployer : Bool
  deployGrafana : Bool
  deployOnDemand : Bool
  cycleCloudAsDeployer : Bool
  useExistingAD : Bool
  userAuth : UserAuth
  highAvailabilityForAD : Bool
  queue_manager : String
  slurm_accounting_enabled : Bool
  create_anf : Bool
  deploy_gateway : Bool
  deploy_bastion : Bool
  /-- Read when `useExistingAD` only. -/
  domain_controller_ip_addresses : List String

/-- A domain controller is deployed. -/
def Vars.createAD (v : Vars) : Bool := !v.useExistingAD && v.userAuth = .ad

/-- Slurm keeps its accounts in a database. -/
def Vars.createDatabase (v : Vars) : Bool := v.queue_manager = "slurm" && v.slurm_accounting_enabled

/-- What the rules name for the domain controller. -/
def Vars.nsgTargetForDC (v : Vars) : Target :=
  if v.useExistingAD then .prefixes v.domain_controller_ip_addresses else .asg .asg_ad

/-- `contains(config, 'section') && contains(section, 'create') ? section.create : false`. -/
def created (section? : Option Create) : Bool :=
  match section? with
  | some s => s.create
  | none => false

/-- `ssh_port`, 22 by default. -/
def sshPort (port : Option Int) : Int := port.getD 22

/-- The port of the jumpbox. -/
def jumpboxSshPort (c : AzhopConfig) : Int := sshPort (c.jumpbox.bind (·.ssh_port))

/-- The port of the deployer. -/
def deployerSshPort (c : AzhopConfig) : Int := sshPort (c.deployer.bind (·.ssh_port))

/-- The port of CycleCloud, where it is the deployer. -/
def ccportalSshPort (c : AzhopConfig) : Int :=
  if c.cyclecloud.use_as_deployer.getD false then sshPort c.cyclecloud.ssh_port else 22

/-- The port of the machine users reach with SSH. -/
def incomingSSHPort (c : AzhopConfig) : Int :=
  if c.deployer.isSome then deployerSshPort c
  else if c.cyclecloud.use_as_deployer.getD false then ccportalSshPort c
  else jumpboxSshPort c

/-- `locked_down_network.public_ip`: allowed when the section is absent. -/
def enablePublicIP (c : AzhopConfig) : Bool := (c.locked_down_network.map (·.public_ip)).getD true

/-- `lustre.create`. -/
def deployLustre (c : AzhopConfig) : Bool := (c.lustre.map (·.create)).getD false

/-- `monitoring.grafana`: deployed unless it is switched off. -/
def deployGrafana (c : AzhopConfig) : Bool := (c.monitoring.bind (·.grafana)).getD true

/-- There is a section `ondemand`. -/
def deployOnDemand (c : AzhopConfig) : Bool := c.ondemand.isSome

/-- `domain.use_existing_dc` is read without a default. -/
def useExistingAD (c : AzhopConfig) : Option Bool :=
  match c.domain with
  | some d => d.use_existing_dc
  | none => some false

/-- `authentication.user_auth`. -/
def userAuth (c : AzhopConfig) : UserAuth := (c.authentication.bind (·.user_auth)).getD .ad

/-- `ad.high_availability`. -/
def highAvailabilityForAD (c : AzhopConfig) : Bool := (c.ad.bind (·.high_availability)).getD false

/-- `anf.create`. -/
def create_anf (c : AzhopConfig) : Bool := (c.anf.map (·.create)).getD false

/-- Read for an existing domain controller only. -/
def domain_controller_ip_addresses (c : AzhopConfig) (useExistingAD : Bool) : Option (List String) :=
  if useExistingAD then do
    let domain ← c.domain
    let details ← domain.existing_dc_details
    details.domain_controller_ip_addresses
  else some []

/-- The variables of a configuration, where all of them can be read. -/
def vars (c : AzhopConfig) : Option Vars := do
  let useExistingAD ← useExistingAD c
  let ips ← domain_controller_ip_addresses c useExistingAD
  return {
    enablePublicIP := enablePublicIP c
    incomingSSHPort := incomingSSHPort c
    deployLustre := deployLustre c
    deployJumpbox := c.jumpbox.isSome
    deployDeployer := c.deployer.isSome
    deployGrafana := deployGrafana c
    deployOnDemand := deployOnDemand c
    cycleCloudAsDeployer := c.cyclecloud.use_as_deployer.getD false
    useExistingAD
    userAuth := userAuth c
    highAvailabilityForAD := highAvailabilityForAD c
    queue_manager := c.queue_manager
    slurm_accounting_enabled := (c.slurm.map (·.accounting_enabled)).getD false
    create_anf := create_anf c
    deploy_gateway := created c.vpn_gateway
    deploy_bastion := created c.bastion
    domain_controller_ip_addresses := ips }

/-! ## Subnets -/

/-- An entry of `config.vnet.subnets`. -/
structure Subnet where
  name : String
  cidr : String
  nat_gateway : Option Bool := none
  apply_nsg : Option Bool := none
  service_endpoints : List String := []
  delegations : List String := []

/-- The name and the prefix of a subnet whose section gives its name. -/
def subnet (default : String) (s : SubnetClass) : Option Subnet := do
  let cidr ← s.address_prefixes
  return { name := s.name.getD default, cidr }

/-- A subnet Azure prescribes the name of. -/
def fixedSubnet (name : String) (apply_nsg : Bool) (s : SubnetClass) : Option Subnet := do
  let cidr ← s.address_prefixes
  return { name, cidr, apply_nsg }

/-- The condition, the key and the value of every entry of the union. -/
def subnetEntries (v : Vars) (s : Subnets) : List (Bool × SubnetKey × Option Subnet) :=
  [(true, .frontend, (subnet "frontend" s.frontend).map fun x =>
      { x with nat_gateway := true, service_endpoints := ["Microsoft.Storage"] }),
   (true, .admin, (subnet "admin" s.admin).map fun x =>
      { x with nat_gateway := true, service_endpoints := ["Microsoft.KeyVault", "Microsoft.Storage"] }),
   (true, .compute, (subnet "compute" s.compute).map fun x =>
      { x with nat_gateway := true, service_endpoints := ["Microsoft.Storage"] }),
   (v.createDatabase, .database, (s.database.bind (subnet "database")).map fun x =>
      { x with delegations := ["Microsoft.DBforMySQL/flexibleServers"] }),
   (v.create_anf, .netapp, (s.netapp.bind (subnet "netapp")).map fun x =>
      { x with delegations := ["Microsoft.Netapp/volumes"] }),
   (v.deployLustre, .lustre, s.lustre.bind (subnet "lustre")),
   (v.createAD, .ad, (s.ad.bind (subnet "ad")).map fun x => { x with nat_gateway := true }),
   (s.bastion.isSome, .bastion, s.bastion.bind (fixedSubnet "AzureBastionSubnet" true)),
   (s.outbounddns.isSome, .outbounddns, (s.outbounddns.bind (subnet "outbounddns")).map fun x =>
      { x with delegations := ["Microsoft.Network/dnsResolvers"] }),
   (s.gateway.isSome, .gateway, s.gateway.bind (fixedSubnet "GatewaySubnet" false))]

/-- The subnets of the deployment. -/
def subnets (v : Vars) (s : Subnets) : Option (List (SubnetKey × Subnet)) := build (subnetEntries v s)

/-- `network.bicep` gives a subnet the common security group unless the entry
says `apply_nsg: false`. -/
def Subnet.carriesNsg (s : Subnet) : Bool := s.apply_nsg != some false

/-! ## Virtual machines -/

/-- An entry of `config.vms`. -/
structure VmEntry where
  subnet : SubnetKey
  name : String
  sku : String
  osdisksku : String
  pip : Option Bool := none
  sshPort : Option Int := none
  windows : Option Bool := none
  ahub : Option Bool := none
  asgs : List Asg

/-- `vm.bicep` gives a VM a public address when its entry has `pip: true`. -/
def VmEntry.hasPublicIp (vm : VmEntry) : Bool := vm.pip = some true

/-- The security groups of the VMs every feature adds its own to. -/
def clientAsgs (cond : Bool) (asg : Asg) : List Asg := if cond then [asg] else []

/-- The security group of the machines that join the domain. -/
def Vars.adClient (v : Vars) : List Asg := clientAsgs (v.userAuth = .ad) .asg_ad_client

/-- The security group of the machines that report to Grafana. -/
def Vars.telegraf (v : Vars) : List Asg := clientAsgs v.deployGrafana .asg_telegraf

/-- `ad` and `ad2`. -/
def adVm (c : AzhopConfig) (name : Ad → Option String) (default : String) : Option VmEntry := do
  let ad ← c.ad
  let sku ← ad.vm_size
  return { subnet := .ad, windows := true, name := (name ad).getD default, ahub := ad.hybrid_benefit.getD false, sku,
           osdisksku := "StandardSSD_LRS", asgs := [.asg_ad, .asg_rdp, .asg_ad_client] }

/-- The condition, the key and the value of every machine. -/
def vmEntries (c : AzhopConfig) (v : Vars) : List (Bool × String × Option VmEntry) :=
  [(v.deployOnDemand, "ondemand", c.ondemand.map fun vm =>
      { subnet := .frontend, name := vm.name.getD "ondemand", sku := vm.vm_size, osdisksku := "StandardSSD_LRS",
        pip := v.enablePublicIP,
        asgs := arrayUnion [[.asg_ssh, .asg_ondemand, .asg_nfs_client, .asg_sched, .asg_cyclecloud_client],
          v.telegraf, v.adClient, clientAsgs v.deployLustre .asg_lustre_client] }),
   (true, "ccportal", some
      { subnet := if v.deployOnDemand then .admin else .frontend, name := c.cyclecloud.name.getD "ccportal",
        sku := c.cyclecloud.vm_size, osdisksku := "StandardSSD_LRS", pip := v.enablePublicIP && !v.deployOnDemand,
        sshPort := some (if v.cycleCloudAsDeployer then v.incomingSSHPort else 22),
        asgs := arrayUnion [[.asg_ssh, .asg_cyclecloud],
          if v.cycleCloudAsDeployer then [.asg_jumpbox, .asg_deployer] else [], v.adClient, v.telegraf] }),
   (true, "scheduler", some
      { subnet := .admin, name := c.scheduler.name.getD "scheduler", sku := c.scheduler.vm_size,
        osdisksku := "StandardSSD_LRS",
        asgs := arrayUnion [[.asg_ssh, .asg_sched, .asg_cyclecloud_client, .asg_nfs_client],
          v.adClient, v.telegraf, clientAsgs v.createDatabase .asg_mysql_client] }),
   (v.createAD, "ad", adVm c Ad.name "ad"),
   (v.deployDeployer, "deployer", c.deployer.map fun vm =>
      { subnet := .frontend, name := vm.name.getD "deployer", sku := vm.vm_size, osdisksku := "Standard_LRS",
        pip := v.enablePublicIP, sshPort := v.incomingSSHPort,
        asgs := arrayUnion [[.asg_ssh, .asg_jumpbox, .asg_deployer], v.telegraf] }),
   (v.highAvailabilityForAD, "ad2", adVm c Ad.ha_name "ad2"),
   (v.deployJumpbox, "jumpbox", c.jumpbox.map fun vm =>
      { subnet := .frontend, name := vm.name.getD "jumpbox", sku := vm.vm_size, osdisksku := "StandardSSD_LRS",
        pip := v.enablePublicIP, sshPort := v.incomingSSHPort,
        asgs := arrayUnion [[.asg_ssh, .asg_jumpbox], v.telegraf] }),
   (v.deployGrafana, "grafana", c.grafana.map fun vm =>
      { subnet := .admin, name := vm.name.getD "grafana", sku := vm.vm_size, osdisksku := "StandardSSD_LRS",
        asgs := arrayUnion [[.asg_ssh, .asg_grafana, .asg_telegraf, .asg_nfs_client], v.adClient] })]

/-- The machines of the deployment. -/
def vms (c : AzhopConfig) (v : Vars) : Option (List (String × VmEntry)) := build (vmEntries c v)

/-- The security groups that are created. -/
def asg_names (v : Vars) : List Asg :=
  arrayUnion
    [[.asg_ssh, .asg_jumpbox, .asg_sched, .asg_cyclecloud, .asg_cyclecloud_client, .asg_nfs_client],
     if v.deployLustre then [.asg_lustre_client] else [],
     if v.deployGrafana then [.asg_grafana, .asg_telegraf] else [],
     if v.userAuth = .ad then [.asg_rdp, .asg_ad, .asg_ad_client] else [],
     if v.deployOnDemand then [.asg_ondemand] else [],
     if v.createDatabase then [.asg_mysql_client] else [],
     if v.deployDeployer || v.cycleCloudAsDeployer then [.asg_deployer] else []]

/-! ## Rules -/

/-- The port lists, by the name the rows use. -/
def service_ports (v : Vars) : List (PortKey × List PortRange) :=
  [(.All, [.span 0 65535]),
   (.Bastion, if v.incomingSSHPort = 22 then [.one 22, .one 3389] else [.one 22, .one v.incomingSSHPort, .one 3389]),
   (.Web, [.one 443, .one 80]),
   (.Ssh, [.one 22]),
   (.HubSsh, [.one v.incomingSSHPort]),
   (.DomainControlerTcp, [.one 53, .one 88, .one 135, .one 389, .one 445, .one 464, .one 636, .one 3268, .one 3269,
      .one 9389, .span 49152 65535]),
   (.DomainControlerUdp, [.one 53, .one 88, .one 123, .one 138, .one 389, .one 464, .one 636]),
   (.NoVnc, [.one 80, .one 443, .span 5900 5910, .span 61001 61010]),
   (.Dns, [.one 53]),
   (.Rdp, [.one 3389]),
   (.Shed, if v.queue_manager = "slurm" then [.span 6817 6819, .span 59000 61000]
      else [.one 6200, .span 15001 15009, .one 17001, .span 32768 61000]),
   (.Lustre, [.one 988, .span 1019 1023]),
   (.Nfs, [.one 111, .one 635, .one 2049, .one 4045, .one 4046]),
   (.SMB, [.one 445]),
   (.Telegraf, [.one 8086]),
   (.Grafana, [.one 3000]),
   (.CycleCloud, [.one 9443, .one 5672]),
   (.MySQL, [.one 3306, .one 33060]),
   (.WinRM, [.one 5985, .one 5986])]

/-- The rows of every deployment. -/
def nsg_rules.«default» : Rows :=
  [("AllowSshFromJumpboxIn", ⟨320, Inbound, Allow, Tcp, .Ssh, .asg .asg_jumpbox, .asg .asg_ssh⟩),
   ("AllowSshFromComputeIn", ⟨330, Inbound, Allow, Tcp, .Ssh, .subnet .compute, .asg .asg_ssh⟩),
   ("AllowSshToComputeIn", ⟨360, Inbound, Allow, Tcp, .Ssh, .asg .asg_ssh, .subnet .compute⟩),
   ("AllowAllComputeComputeIn", ⟨365, Inbound, Allow, Tcp, .All, .subnet .compute, .subnet .compute⟩),
   ("AllowSchedIn", ⟨369, Inbound, Allow, Any, .Shed, .asg .asg_sched, .asg .asg_sched⟩),
   ("AllowSchedComputeIn", ⟨380, Inbound, Allow, Any, .Shed, .asg .asg_sched, .subnet .compute⟩),
   ("AllowComputeSchedIn", ⟨400, Inbound, Allow, Any, .Shed, .subnet .compute, .asg .asg_sched⟩),
   ("AllowCycleClientIn", ⟨450, Inbound, Allow, Tcp, .CycleCloud, .asg .asg_cyclecloud_client, .asg .asg_cyclecloud⟩),
   ("AllowCycleClientComputeIn", ⟨460, Inbound, Allow, Tcp, .CycleCloud, .subnet .compute, .asg .asg_cyclecloud⟩),
   ("AllowCycleServerIn", ⟨465, Inbound, Allow, Tcp, .CycleCloud, .asg .asg_cyclecloud, .asg .asg_cyclecloud_client⟩),
   ("DenyVnetInbound", ⟨3100, Inbound, Deny, Any, .All, .tag .VirtualNetwork, .tag .VirtualNetwork⟩),
   ("AllowCycleServerOut", ⟨300, Outbound, Allow, Tcp, .CycleCloud, .asg .asg_cyclecloud, .asg .asg_cyclecloud_client⟩),
   ("AllowCycleClientOut", ⟨310, Outbound, Allow, Tcp, .CycleCloud, .asg .asg_cyclecloud_client, .asg .asg_cyclecloud⟩),
   ("AllowComputeCycleClientIn", ⟨320, Outbound, Allow, Tcp, .CycleCloud, .subnet .compute, .asg .asg_cyclecloud⟩),
   ("AllowSchedOut", ⟨340, Outbound, Allow, Any, .Shed, .asg .asg_sched, .asg .asg_sched⟩),
   ("AllowSchedComputeOut", ⟨360, Outbound, Allow, Any, .Shed, .asg .asg_sched, .subnet .compute⟩),
   ("AllowComputeSchedOut", ⟨370, Outbound, Allow, Any, .Shed, .subnet .compute, .asg .asg_sched⟩),
   ("AllowSshFromJumpboxOut", ⟨490, Outbound, Allow, Tcp, .Ssh, .asg .asg_jumpbox, .asg .asg_ssh⟩),
   ("AllowSshComputeOut", ⟨500, Outbound, Allow, Tcp, .Ssh, .asg .asg_ssh, .subnet .compute⟩),
   ("AllowSshFromComputeOut", ⟨530, Outbound, Allow, Tcp, .Ssh, .subnet .compute, .asg .asg_ssh⟩),
   ("AllowAllComputeComputeOut", ⟨540, Outbound, Allow, Tcp, .All, .subnet .compute, .subnet .compute⟩),
   ("AllowDnsOut", ⟨590, Outbound, Allow, Any, .Dns, .tag .VirtualNetwork, .tag .VirtualNetwork⟩),
   ("AllowInternetOutBound", ⟨3000, Outbound, Allow, Tcp, .All, .tag .VirtualNetwork, .tag .Internet⟩),
   ("DenyVnetOutbound", ⟨3100, Outbound, Deny, Any, .All, .tag .VirtualNetwork, .tag .VirtualNetwork⟩)]

/-- The rows for access from the internet. -/
def nsg_rules.internet : Rows :=
  [("AllowInternetSshIn", ⟨200, Inbound, Allow, Tcp, .HubSsh, .tag .Internet, .asg .asg_jumpbox⟩),
   ("AllowInternetHttpIn", ⟨210, Inbound, Allow, Tcp, .Web, .tag .Internet, .subnet .frontend⟩)]

/-- The rows for access from a hub network. -/
def nsg_rules.hub : Rows :=
  [("AllowHubSshIn", ⟨200, Inbound, Allow, Tcp, .HubSsh, .tag .VirtualNetwork, .tag .VirtualNetwork⟩),
   ("AllowHubHttpIn", ⟨210, Inbound, Allow, Tcp, .Web, .tag .VirtualNetwork, .tag .VirtualNetwork⟩)]

/-- The rows between the domain controllers and their clients. -/
def nsg_rules.ad : Rows :=
  [("AllowAdServerTcpIn", ⟨220, Inbound, Allow, Tcp, .DomainControlerTcp, .dc, .asg .asg_ad_client⟩),
   ("AllowAdServerUdpIn", ⟨230, Inbound, Allow, Udp, .DomainControlerUdp, .dc, .asg .asg_ad_client⟩),
   ("AllowAdClientTcpIn", ⟨240, Inbound, Allow, Tcp, .DomainControlerTcp, .asg .asg_ad_client, .dc⟩),
   ("AllowAdClientUdpIn", ⟨250, Inbound, Allow, Udp, .DomainControlerUdp, .asg .asg_ad_client, .dc⟩),
   ("AllowAdServerComputeTcpIn", ⟨260, Inbound, Allow, Tcp, .DomainControlerTcp, .dc, .subnet .compute⟩),
   ("AllowAdServerComputeUdpIn", ⟨270, Inbound, Allow, Udp, .DomainControlerUdp, .dc, .subnet .compute⟩),
   ("AllowAdClientComputeTcpIn", ⟨280, Inbound, Allow, Tcp, .DomainControlerTcp, .subnet .compute, .dc⟩),
   ("AllowAdClientComputeUdpIn", ⟨290, Inbound, Allow, Udp, .DomainControlerUdp, .subnet .compute, .dc⟩),
   ("AllowWinRMIn", ⟨520, Inbound, Allow, Tcp, .WinRM, .asg .asg_jumpbox, .asg .asg_rdp⟩),
   ("AllowRdpIn", ⟨550, Inbound, Allow, Tcp, .Rdp, .asg .asg_jumpbox, .asg .asg_rdp⟩),
   ("AllowAdClientTcpOut", ⟨200, Outbound, Allow, Tcp, .DomainControlerTcp, .asg .asg_ad_client, .dc⟩),
   ("AllowAdClientUdpOut", ⟨210, Outbound, Allow, Udp, .DomainControlerUdp, .asg .asg_ad_client, .dc⟩),
   ("AllowAdClientComputeTcpOut", ⟨220, Outbound, Allow, Tcp, .DomainControlerTcp, .subnet .compute, .dc⟩),
   ("AllowAdClientComputeUdpOut", ⟨230, Outbound, Allow, Udp, .DomainControlerUdp, .subnet .compute, .dc⟩),
   ("AllowAdServerTcpOut", ⟨240, Outbound, Allow, Tcp, .DomainControlerTcp, .dc, .asg .asg_ad_client⟩),
   ("AllowAdServerUdpOut", ⟨250, Outbound, Allow, Udp, .DomainControlerUdp, .dc, .asg .asg_ad_client⟩),
   ("AllowAdServerComputeTcpOut", ⟨260, Outbound, Allow, Tcp, .DomainControlerTcp, .dc, .subnet .compute⟩),
   ("AllowAdServerComputeUdpOut", ⟨270, Outbound, Allow, Udp, .DomainControlerUdp, .dc, .subnet .compute⟩),
   ("AllowRdpOut", ⟨570, Outbound, Allow, Tcp, .Rdp, .asg .asg_jumpbox, .asg .asg_rdp⟩),
   ("AllowWinRMOut", ⟨580, Outbound, Allow, Tcp, .WinRM, .asg .asg_jumpbox, .asg .asg_rdp⟩)]

/-- The rows of Open OnDemand. -/
def nsg_rules.ondemand : Rows :=
  [("AllowCycleWebIn", ⟨440, Inbound, Allow, Tcp, .Web, .asg .asg_ondemand, .asg .asg_cyclecloud⟩),
   ("AllowComputeNoVncIn", ⟨470, Inbound, Allow, Tcp, .NoVnc, .subnet .compute, .asg .asg_ondemand⟩),
   ("AllowNoVncComputeIn", ⟨480, Inbound, Allow, Tcp, .NoVnc, .asg .asg_ondemand, .subnet .compute⟩),
   ("AllowCycleWebOut", ⟨330, Outbound, Allow, Tcp, .Web, .asg .asg_ondemand, .asg .asg_cyclecloud⟩),
   ("AllowComputeNoVncOut", ⟨550, Outbound, Allow, Tcp, .NoVnc, .subnet .compute, .asg .asg_ondemand⟩),
   ("AllowNoVncComputeOut", ⟨560, Outbound, Allow, Tcp, .NoVnc, .asg .asg_ondemand, .subnet .compute⟩)]

/-- The rows of the database. -/
def nsg_rules.mysql : Rows :=
  [("AllowMySQLIn", ⟨700, Inbound, Allow, Tcp, .MySQL, .asg .asg_mysql_client, .subnet .database⟩),
   ("AllowMySQLOut", ⟨700, Outbound, Allow, Tcp, .MySQL, .asg .asg_mysql_client, .subnet .database⟩)]

/-- The rows of the file shares. -/
def nsg_rules.anf : Rows :=
  [("AllowNfsIn", ⟨434, Inbound, Allow, Any, .Nfs, .asg .asg_nfs_client, .subnet .netapp⟩),
   ("AllowNfsComputeIn", ⟨435, Inbound, Allow, Any, .Nfs, .subnet .compute, .subnet .netapp⟩),
   ("AllowNfsOut", ⟨440, Outbound, Allow, Any, .Nfs, .asg .asg_nfs_client, .subnet .netapp⟩),
   ("AllowNfsComputeOut", ⟨450, Outbound, Allow, Any, .Nfs, .subnet .compute, .subnet .netapp⟩)]

/-- The rows between the file shares and the domain controllers. -/
def nsg_rules.ad_anf : Rows :=
  [("AllowAdServerNetappTcpIn", ⟨300, Inbound, Allow, Tcp, .DomainControlerTcp, .subnet .netapp, .dc⟩),
   ("AllowAdServerNetappUdpIn", ⟨310, Inbound, Allow, Udp, .DomainControlerUdp, .subnet .netapp, .dc⟩),
   ("AllowAdServerNetappTcpOut", ⟨280, Outbound, Allow, Tcp, .DomainControlerTcp, .dc, .subnet .netapp⟩),
   ("AllowAdServerNetappUdpOut", ⟨290, Outbound, Allow, Udp, .DomainControlerUdp, .dc, .subnet .netapp⟩)]

/-- The rows of Lustre. -/
def nsg_rules.lustre : Rows :=
  [("AllowLustreClientIn", ⟨410, Inbound, Allow, Tcp, .Lustre, .asg .asg_lustre_client, .subnet .lustre⟩),
   ("AllowLustreClientComputeIn", ⟨420, Inbound, Allow, Tcp, .Lustre, .subnet .compute, .subnet .lustre⟩),
   ("AllowLustreSubnetAnyInbound", ⟨430, Inbound, Allow, Any, .All, .subnet .lustre, .subnet .lustre⟩),
   ("AllowAzureCloudServiceAccess", ⟨400, Outbound, Allow, Any, .All, .tag .VirtualNetwork, .tag .AzureCloud⟩),
   ("AllowLustreClientOut", ⟨410, Outbound, Allow, Tcp, .Lustre, .asg .asg_lustre_client, .subnet .lustre⟩),
   ("AllowLustreClientComputeOut", ⟨420, Outbound, Allow, Tcp, .Lustre, .subnet .compute, .subnet .lustre⟩),
   ("AllowLustreSubnetAnyOutbound", ⟨430, Outbound, Allow, Any, .All, .subnet .lustre, .subnet .lustre⟩)]

/-- The rows of the bastion. -/
def nsg_rules.bastion : Rows :=
  [("AllowBastionIn", ⟨530, Inbound, Allow, Tcp, .Bastion, .subnet .bastion, .tag .VirtualNetwork⟩),
   ("AllowBastionOut", ⟨531, Outbound, Allow, Tcp, .Bastion, .subnet .bastion, .tag .VirtualNetwork⟩)]

/-- The rows of the VPN gateway. -/
def nsg_rules.gateway : Rows :=
  [("AllowInternalWebUsersIn", ⟨540, Inbound, Allow, Tcp, .Web, .subnet .gateway, .asg .asg_ondemand⟩)]

/-- The rows of Telegraf and Grafana. -/
def nsg_rules.grafana : Rows :=
  [("AllowTelegrafIn", ⟨490, Inbound, Allow, Tcp, .Telegraf, .asg .asg_telegraf, .asg .asg_grafana⟩),
   ("AllowComputeTelegrafIn", ⟨500, Inbound, Allow, Tcp, .Telegraf, .subnet .compute, .asg .asg_grafana⟩),
   ("AllowGrafanaIn", ⟨510, Inbound, Allow, Tcp, .Grafana, .asg .asg_ondemand, .asg .asg_grafana⟩),
   ("AllowTelegrafOut", ⟨460, Outbound, Allow, Tcp, .Telegraf, .asg .asg_telegraf, .asg .asg_grafana⟩),
   ("AllowComputeTelegrafOut", ⟨470, Outbound, Allow, Tcp, .Telegraf, .subnet .compute, .asg .asg_grafana⟩),
   ("AllowGrafanaOut", ⟨480, Outbound, Allow, Tcp, .Grafana, .asg .asg_ondemand, .asg .asg_grafana⟩)]

/-- The rows of the deployer. -/
def nsg_rules.deployer : Rows :=
  [("AllowSshFromDeployerIn", ⟨340, Inbound, Allow, Tcp, .Ssh, .asg .asg_deployer, .asg .asg_ssh⟩),
   ("AllowDeployerToPackerSshIn", ⟨350, Inbound, Allow, Tcp, .Ssh, .asg .asg_deployer, .subnet .admin⟩),
   ("AllowSshDeployerOut", ⟨510, Outbound, Allow, Tcp, .Ssh, .asg .asg_deployer, .asg .asg_ssh⟩),
   ("AllowSshDeployerPackerOut", ⟨520, Outbound, Allow, Tcp, .Ssh, .asg .asg_deployer, .subnet .admin⟩)]

/-- The blocks of the union `nsgRules`, with their conditions. -/
def nsgBlocks (v : Vars) : List (Bool × Rows) :=
  [(true, nsg_rules.«default»),
   (v.userAuth = .ad, nsg_rules.ad),
   (v.userAuth = .ad && v.create_anf, nsg_rules.ad_anf),
   (v.enablePublicIP, nsg_rules.internet),
   (!v.enablePublicIP, nsg_rules.hub),
   (v.deploy_bastion, nsg_rules.bastion),
   (v.deploy_gateway, nsg_rules.gateway),
   (v.create_anf, nsg_rules.anf),
   (v.deployLustre, nsg_rules.lustre),
   (v.deployGrafana, nsg_rules.grafana),
   (v.deployOnDemand, nsg_rules.ondemand),
   (v.createDatabase, nsg_rules.mysql),
   (v.deployDeployer, nsg_rules.deployer)]

/-- The rows the template emits. -/
def nsgRules (v : Vars) : Rows := unionAll (gated (nsgBlocks v))

/-! ## The deployment -/

/-- `config.domain`. -/
structure DomainEntry where
  name : String
  domain_join_user : DomainJoinUser
  domain_controlers : List String
  ldap_server : String

/-- The domain the playbooks get; an existing one is read without defaults. -/
def domainEntry (c : AzhopConfig) (v : Vars) : Option DomainEntry := do
  let name ← match c.domain with
    | some d => d.name
    | none => some "hpc.azure"
  let ad := (c.ad.bind (·.name)).getD "ad"
  let ad2 := (c.ad.bind (·.ha_name)).getD "ad2"
  if v.createAD then
    return { name, domain_join_user := ⟨c.admin_user, "foo", "foo", "foo"⟩,
             domain_controlers := if v.highAvailabilityForAD then [ad, ad2] else [ad], ldap_server := ad }
  else if v.useExistingAD then do
    let domain ← c.domain
    let user ← domain.domain_join_user
    let username ← user.username
    let vault ← user.password_key_vault_name
    let group ← user.password_key_vault_resource_group_name
    let secret ← user.password_key_vault_secret_name
    let details ← domain.existing_dc_details
    let names ← details.domain_controller_names
    let ldap_server ← names[0]?
    return { name, domain_join_user := ⟨username, vault, group, secret⟩, domain_controlers := names, ldap_server }
  else return { name, domain_join_user := { username := "" }, domain_controlers := [], ldap_server := "" }

/-- The modules that take subnets, and those they take. -/
def moduleEntries (c : AzhopConfig) (v : Vars) : List (Bool × List (String × List SubnetKey)) :=
  [(v.deploy_bastion, [("azhopBastion", [.bastion])]),
   (true, [("azhopKeyvault", [.admin])]),
   (true, [("azhopStorage", [.admin, .compute])]),
   (v.createDatabase, [("mySQLDB", [.database])]),
   (v.deploy_gateway, [("azhopVpnGateway", [.gateway])]),
   (v.deployLustre, [("azhopAmlfs", [.lustre])]),
   (v.create_anf, [("azhopAnf", [.netapp])]),
   ((c.azurefiles.map (·.create)).getD false, [("azhopNfsFiles", [.admin, .compute, .frontend])])]

/-- The resources the template derives from a configuration. -/
structure Deployment where
  vars : Vars
  vnet_name : String
  vnet_cidr : String
  domain : DomainEntry
  subnets : List (SubnetKey × Subnet)
  vms : List (String × VmEntry)
  asg_names : List Asg
  service_ports : List (PortKey × List PortRange)
  nsgRules : Rows
  modules : List (String × List SubnetKey)

/-- What the template makes of a configuration, `none` where it fails. -/
def azhop (c : AzhopConfig) : Option Deployment := do
  let v ← vars c
  let vnet_name ← c.network.vnet.name
  let vnet_cidr ← c.network.vnet.address_space
  let domain ← domainEntry c v
  let subnets ← subnets v c.network.vnet.subnets
  let vms ← vms c v
  return { vars := v, vnet_name, vnet_cidr, domain, subnets, vms, asg_names := asg_names v,
           service_ports := service_ports v, nsgRules := nsgRules v, modules := (gated (moduleEntries c v)).flatten }

/-! ## `network.bicep` -/

/-- The address or the group a side of a rule names. -/
def resolve (d : Deployment) : Side → Option Target
  | .asg a => some (.asg a)
  | .tag t => some (.tag t)
  | .subnet k => (get? d.subnets k).map fun s => .prefixes [s.cidr]
  | .dc => some d.vars.nsgTargetForDC

/-- The rules of `nsg-common`. -/
def securityRules (d : Deployment) : Option (List SecurityRule) :=
  d.nsgRules.mapM (securityRule (get? d.service_ports) (resolve d))

section
variable {Addr : Type} (covers : String → Addr → Bool)

/-- The address is in subnet `k` of the deployment. -/
def inSubnet (d : Deployment) (k : SubnetKey) (a : Addr) : Bool :=
  match get? d.subnets k with
  | some s => covers s.cidr a
  | none => false

variable {covers} {d : Deployment} {e : Endpoint Addr}

@[simp] theorem side_asg {a : Asg} : sideMatches covers (resolve d) (.asg a) e = true ↔ a ∈ e.asgs := by
  simp [sideMatches, resolve]

@[simp] theorem side_tag {t : Tag} : sideMatches covers (resolve d) (.tag t) e = true ↔ t ∈ e.tags := by
  simp [sideMatches, resolve]

@[simp] theorem side_subnet {k : SubnetKey} :
    sideMatches covers (resolve d) (.subnet k) e = inSubnet covers d k e.addr := by
  cases h : get? d.subnets k <;> simp [sideMatches, inSubnet, resolve, Target.matches, h]

theorem side_dc : sideMatches covers (resolve d) .dc e = true ↔
    if d.vars.useExistingAD then ∃ p ∈ d.vars.domain_controller_ip_addresses, covers p e.addr = true
    else .asg_ad ∈ e.asgs := by
  unfold sideMatches resolve Vars.nsgTargetForDC
  cases d.vars.useExistingAD <;> simp [Target.matches]

end
end AzHop.Bicep
