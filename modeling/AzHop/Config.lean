import Mathlib.Init
/-!
# The configuration file

The values `config.schema.json` accepts, one structure per definition of the
schema: a property the schema requires is a plain field, any other property
is an `Option`, and an enumeration is an inductive type, so a file that fails
validation has no value here.

Properties no part of the development reads are left out: of the sections `anf`,
`azurefiles` and `lustre` only `create` is here, of an entry of `network.peering`
nothing but that there is one, of `network.asg` the names without the resource
group, and of `mounts.home` not the server and its export. The cluster templates
are given the list of queues by itself.
-/
namespace AzHop

/-- `authentication.user_auth`. -/
inductive UserAuth
  | «local»
  | ad
  deriving DecidableEq

/-- `authentication.httpd_auth`. -/
inductive HttpdAuth
  | basic
  | oidc
  deriving DecidableEq

/-- `mounts.home.type`. -/
inductive HomeType
  | anf
  | azurefiles
  | existing
  deriving DecidableEq

/-- The subnets of the schema's `Subnets`, which are also the keys of the
subnet objects both backends build. -/
inductive SubnetKey
  | frontend
  | admin
  | netapp
  | ad
  | compute
  | bastion
  | lustre
  | gateway
  | outbounddns
  | database
  deriving DecidableEq

/-- The application security groups either backend names. -/
inductive Asg
  | asg_ssh
  | asg_rdp
  | asg_jumpbox
  | asg_ad
  | asg_ad_client
  | asg_lustre_client
  | asg_sched
  | asg_cyclecloud
  | asg_cyclecloud_client
  | asg_nfs_client
  | asg_telegraf
  | asg_grafana
  | asg_ondemand
  | asg_deployer
  | asg_mysql_client
  /-- Only the schema knows this name. -/
  | asg_mariadb_client
  deriving DecidableEq

/-- `mounts.home`. -/
structure Home where
  type : Option HomeType := none
  mountpoint : String
  options : Option String := none

/-- `mounts`. -/
structure Mounts where
  home : Home

/-- The section of one subnet. -/
structure SubnetClass where
  name : Option String := none
  address_prefixes : Option String := none
  create : Option Bool := none

/-- `network.vnet.subnets`. -/
structure Subnets where
  frontend : SubnetClass
  admin : SubnetClass
  netapp : Option SubnetClass := none
  ad : Option SubnetClass := none
  compute : SubnetClass
  bastion : Option SubnetClass := none
  lustre : Option SubnetClass := none
  gateway : Option SubnetClass := none
  outbounddns : Option SubnetClass := none
  database : Option SubnetClass := none

/-- The section of a subnet, by its key. -/
def Subnets.get? (s : Subnets) : SubnetKey → Option SubnetClass
  | .frontend => some s.frontend
  | .admin => some s.admin
  | .netapp => s.netapp
  | .ad => s.ad
  | .compute => some s.compute
  | .bastion => s.bastion
  | .lustre => s.lustre
  | .gateway => s.gateway
  | .outbounddns => s.outbounddns
  | .database => s.database

/-- `network.vnet`. -/
structure Vnet where
  name : Option String := none
  id : Option String := none
  address_space : Option String := none
  subnets : Subnets

/-- An entry of `network.peering`. -/
structure Peering

/-- `network.asg`: the names of existing security groups, by the key az-hop
knows them under. `asgMappingNames` has no property for `asg-mysql-client`. -/
structure AsgMap where
  names : List (Asg × String)
  names_ok : Asg.asg_mysql_client ∉ names.map Prod.fst := by decide

/-- `network`. -/
structure Network where
  create_nsg : Option Bool := none
  vnet : Vnet
  peering : Option (List Peering) := none
  asg : Option AsgMap := none

/-- `locked_down_network`. -/
structure LockedDownNetwork where
  enforce : Option Bool := none
  public_ip : Bool
  grant_access_from : Option (List String) := none

/-- `jumpbox` and `deployer`. -/
structure Jumpbox where
  vm_size : String
  name : Option String := none
  ssh_port : Option Int := none

/-- `ad`, the machines of the domain controllers. -/
structure Ad where
  vm_size : Option String := none
  name : Option String := none
  ha_name : Option String := none
  hybrid_benefit : Option Bool := none
  high_availability : Option Bool := none

/-- `ondemand`. -/
structure Ondemand where
  vm_size : String
  name : Option String := none
  fqdn : Option String := none

/-- `scheduler` and `grafana`. -/
structure Vm where
  vm_size : String
  name : Option String := none

/-- `cyclecloud`. -/
structure Cyclecloud where
  vm_size : String
  name : Option String := none
  ssh_port : Option Int := none
  use_as_deployer : Option Bool := none

/-- An entry of `users`. -/
structure User where
  name : String
  uid : Int
  shell : Option String := none
  home : Option String := none
  groups : Option (List Int) := none

/-- An entry of `usergroups`. -/
structure Usergroup where
  name : String
  gid : Int

/-- `type` of a queue. -/
inductive QueueType
  | remoteviz
  | compute
  | login
  deriving DecidableEq

/-- An entry of `queues`. -/
structure Queue where
  name : String
  vm_size : String
  image : String
  max_core_count : Option Int := none
  max_count : Option Int := none
  initial_count : Option Int := none
  plan : Option String := none
  EnableAcceleratedNetworking : Option Bool := none
  spot : Option Bool := none
  ColocateNodes : Option Bool := none
  idle_timeout : Option Int := none
  MaxScaleSetSize : Option Int := none
  EphemeralOSDisk : Option Bool := none
  type : Option QueueType := none
  location : Option String := none
  subnet : Option String := none
  healthchecks : Option Bool := none

/-- `domain.domain_join_user`. -/
structure DomainJoinUser where
  username : Option String := none
  password_key_vault_name : Option String := none
  password_key_vault_resource_group_name : Option String := none
  password_key_vault_secret_name : Option String := none

/-- `domain.existing_dc_details`. -/
structure ExistingDcDetails where
  domain_controller_names : Option (List String) := none
  domain_controller_ip_addresses : Option (List String) := none

/-- `domain`. -/
structure Domain where
  name : Option String := none
  use_existing_dc : Option Bool := none
  domain_join_user : Option DomainJoinUser := none
  existing_dc_details : Option ExistingDcDetails := none

/-- `slurm`. -/
structure Slurm where
  accounting_enabled : Bool

/-- `database`. -/
structure Database where
  name : Option String := none
  user : Option String := none
  fqdn : Option String := none

/-- `authentication`. -/
structure Authentication where
  httpd_auth : HttpdAuth
  user_auth : Option UserAuth := none

/-- The sections whose only property read here is `create`: `anf`, `azurefiles`,
`lustre`, `bastion`, `vpn_gateway`, `image_gallery` and `nat_gateway`. -/
structure Create where
  create : Bool

/-- `private_dns`. -/
structure PrivateDns where
  create : Bool
  name : String

/-- `dns`. -/
structure Dns where
  forwarders : List (String × String)

/-- `log_analytics`. -/
structure LogAnalytics where
  create : Bool
  resource_group : Option String := none
  name : Option String := none

/-- `monitoring`. -/
structure Monitoring where
  azure_monitor_agent : Option Bool := none
  telegraf : Option Bool := none
  grafana : Option Bool := none

/-- `alerting`. -/
structure Alerting where
  enabled : Bool
  admin_email : Option String := none

/-- `azure_key_vault` and `azure_storage_account`. -/
structure Named where
  name : Option String := none

/-- The schema's `az-hop` definition. -/
structure AzhopConfig where
  resource_group : String
  optout_telemetry : Option Bool := none
  use_existing_rg : Option Bool := none
  anf : Option Create := none
  azurefiles : Option Create := none
  mounts : Mounts
  admin_user : String
  network : Network
  locked_down_network : Option LockedDownNetwork := none
  jumpbox : Option Jumpbox := none
  deployer : Option Jumpbox := none
  ad : Option Ad := none
  ondemand : Option Ondemand := none
  grafana : Option Vm := none
  scheduler : Vm
  cyclecloud : Cyclecloud
  lustre : Option Create := none
  users : List User
  usergroups : List Usergroup
  domain : Option Domain := none
  queue_manager : String
  slurm : Option Slurm := none
  database : Option Database := none
  authentication : Option Authentication := none
  bastion : Option Create := none
  vpn_gateway : Option Create := none
  image_gallery : Option Create := none
  dns : Option Dns := none
  log_analytics : Option LogAnalytics := none
  monitoring : Option Monitoring := none
  alerting : Option Alerting := none
  nat_gateway : Option Create := none
  private_dns : Option PrivateDns := none
  azure_key_vault : Option Named := none
  azure_storage_account : Option Named := none

/-- A small file both backends accept: local users, no optional machine. -/
def smallConfig : AzhopConfig where
  resource_group := "azhop"
  mounts := { home := { type := HomeType.existing, mountpoint := "/nfshome", options := "rw" } }
  admin_user := "hpcadmin"
  network := { vnet := {
    name := "hpcvnet"
    address_space := "10.0.0.0/23"
    subnets := {
      frontend := { address_prefixes := "10.0.0.0/29" }
      admin := { address_prefixes := "10.0.0.16/28" }
      netapp := some { address_prefixes := "10.0.0.32/28" }
      ad := some { address_prefixes := "10.0.0.8/29" }
      compute := { address_prefixes := "10.0.1.0/24" } } } }
  scheduler := { vm_size := "Standard_D2as_v5" }
  cyclecloud := { vm_size := "Standard_D2as_v5" }
  users := []
  usergroups := []
  queue_manager := "openpbs"
  authentication := some { httpd_auth := .basic, user_auth := UserAuth.«local» }
  monitoring := some { grafana := false }

end AzHop
