import AzHop.Exposure
/-!
# What a compute node can reach

Inside the virtual network the last row denies, so a flow is let in exactly
where a row allows it (`vnet_allow_iff`). A compute node is in no security
group, which leaves it the rows whose source is its subnet or the whole network:
the services listed here, each under the feature that needs it.
-/
namespace AzHop.Bicep
open Lib.Objects RuleProtocol

/-! ## Inside the virtual network -/

section
variable {Addr : Type} {covers : String → Addr → Bool} {c : AzhopConfig} {d : Deployment}

/-- The deny row of a direction matches every flow of the vnet. -/
theorem denyVnet_row (h : azhop c = some d) (dir : Direction) {f : Flow Addr} (hs : .VirtualNetwork ∈ f.src.tags)
    (hd : .VirtualNetwork ∈ f.dst.tags) :
    ∃ x ∈ d.nsgRules, RowMatches covers (get? d.service_ports) (resolve d) dir x.2 f := by
  have hports : get? d.service_ports .All = some [.span 0 65535] := by
    rw [(azhop_parts h).service_ports]
    rfl
  have hdeny : ∃ name, (name, denyVnet dir) ∈ nsg_rules.«default» := by
    cases dir with
    | Inbound => exact ⟨"DenyVnetInbound", by simp [nsg_rules.«default», denyVnet]⟩
    | Outbound => exact ⟨"DenyVnetOutbound", by simp [nsg_rules.«default», denyVnet]⟩
  obtain ⟨name, hname⟩ := hdeny
  exact ⟨_, emitted h (true, nsg_rules.«default») (by simp [nsgBlocks]) rfl hname, denyVnet_matches hports (fun _ => rfl) hs hd⟩

theorem vnet_allow_iff {rules : List SecurityRule} (h : azhop c = some d) (hr : securityRules d = some rules) (dir : Direction)
    {f : Flow Addr} (hs : .VirtualNetwork ∈ f.src.tags) (hd : .VirtualNetwork ∈ f.dst.tags) :
    verdict covers dir rules f = .Allow ↔
      ∃ x ∈ d.nsgRules, x.2.access = .Allow ∧ RowMatches covers (get? d.service_ports) (resolve d) dir x.2 f := by
  have hfirst : AllowFirst d.nsgRules := (azhop_parts h).nsgRules ▸ nsgRules_allowFirst d.vars
  constructor
  · intro hv
    by_contra hno
    have hrow : ∃ x ∈ d.nsgRules, RowMatches covers (get? d.service_ports) (resolve d) dir x.2 f :=
      denyVnet_row h dir hs hd
    obtain ⟨x, hx, hm⟩ := hrow
    have hdenied := deny_of_rows hr hfirst hx hm fun y hy ha hy' => hno ⟨y, hy, ha, hy'⟩
    rw [hv] at hdenied
    cases hdenied
  · rintro ⟨x, hx, ha, hm⟩
    exact allow_of_row hr hfirst hx ha hm

end

/-! ## The services -/

/-- A protocol, ports and a destination. -/
abbrev Service := RuleProtocol × PortKey × Side

/-- What compute nodes use, by feature. -/
def computeServices (v : Vars) : List (Bool × List Service) :=
  [(true, [(Tcp, .Ssh, .asg .asg_ssh), (Tcp, .All, .subnet .compute), (Any, .Shed, .asg .asg_sched),
    (Tcp, .CycleCloud, .asg .asg_cyclecloud)]),
   (v.userAuth = .ad, [(Tcp, .DomainControlerTcp, .dc), (Udp, .DomainControlerUdp, .dc)]),
   (!v.enablePublicIP, [(Tcp, .HubSsh, .tag .VirtualNetwork), (Tcp, .Web, .tag .VirtualNetwork)]),
   (v.create_anf, [(Any, .Nfs, .subnet .netapp)]),
   (v.deployLustre, [(Tcp, .Lustre, .subnet .lustre)]),
   (v.deployGrafana, [(Tcp, .Telegraf, .asg .asg_grafana)]),
   (v.deployOnDemand, [(Tcp, .NoVnc, .asg .asg_ondemand)])]

/-- The rows of a block that let in what comes from the compute subnet, or from anywhere in the network. -/
def fromCompute (rows : Rows) : List Service :=
  (rows.filter fun x => x.2.direction = .Inbound ∧ x.2.access = .Allow ∧
    (x.2.source = .subnet .compute ∨ x.2.source = .tag .VirtualNetwork)).map fun x =>
      (x.2.protocol, x.2.ports, x.2.destination)

theorem mem_fromCompute {rows : Rows} {s : Service} : s ∈ fromCompute rows ↔
    ∃ x ∈ rows, x.2.direction = .Inbound ∧ x.2.access = .Allow ∧
      (x.2.source = .subnet .compute ∨ x.2.source = .tag .VirtualNetwork) ∧
      (x.2.protocol, x.2.ports, x.2.destination) = s := by
  simp only [fromCompute, List.mem_map, List.mem_filter, decide_eq_true_eq]
  constructor
  · rintro ⟨x, ⟨hx, hdir, ha, hsource⟩, rfl⟩
    exact ⟨x, hx, hdir, ha, hsource, rfl⟩
  · rintro ⟨x, hx, hdir, ha, hsource, rfl⟩
    exact ⟨x, ⟨hx, hdir, ha, hsource⟩, rfl⟩

/-- The blocks whose rows are not listed have none for compute nodes. -/
theorem mem_computeServices (v : Vars) (s : Service) :
    (∃ b ∈ nsgBlocks v, b.1 = true ∧ s ∈ fromCompute b.2) ↔ ∃ e ∈ computeServices v, e.1 = true ∧ s ∈ e.2 := by
  have hdefault : fromCompute nsg_rules.«default» = [(Tcp, .Ssh, .asg .asg_ssh), (Tcp, .All, .subnet .compute),
      (Any, .Shed, .asg .asg_sched), (Tcp, .CycleCloud, .asg .asg_cyclecloud)] := by decide
  have had : fromCompute nsg_rules.ad = [(Tcp, .DomainControlerTcp, .dc), (Udp, .DomainControlerUdp, .dc)] := by decide
  have hhub : fromCompute nsg_rules.hub = [(Tcp, .HubSsh, .tag .VirtualNetwork), (Tcp, .Web, .tag .VirtualNetwork)] := by decide
  have hanf : fromCompute nsg_rules.anf = [(Any, .Nfs, .subnet .netapp)] := by decide
  have hlustre : fromCompute nsg_rules.lustre = [(Tcp, .Lustre, .subnet .lustre)] := by decide
  have hgrafana : fromCompute nsg_rules.grafana = [(Tcp, .Telegraf, .asg .asg_grafana)] := by decide
  have hondemand : fromCompute nsg_rules.ondemand = [(Tcp, .NoVnc, .asg .asg_ondemand)] := by decide
  have hnone : ∀ rows ∈ [nsg_rules.ad_anf, nsg_rules.internet, nsg_rules.bastion, nsg_rules.gateway, nsg_rules.mysql,
      nsg_rules.deployer], fromCompute rows = [] := by decide
  simp only [List.forall_mem_cons, List.not_mem_nil, false_implies, implies_true, and_true] at hnone
  obtain ⟨hadanf, hinternet, hbastion, hgateway, hmysql, hdeployer⟩ := hnone
  simp only [nsgBlocks, computeServices, List.exists_mem_cons_iff, List.not_mem_nil, false_and, exists_false, or_false,
    hdefault, had, hhub, hanf, hlustre, hgrafana, hondemand, hadanf, hinternet, hbastion, hgateway, hmysql, hdeployer,
    and_false, false_or]

/-! ## Compute nodes -/

section
variable {Addr : Type} (covers : String → Addr → Bool)

/-- An interface in the compute subnet and in no security group. -/
structure ComputeNode (d : Deployment) (e : Endpoint Addr) : Prop where
  inside : inSubnet covers d .compute e.addr = true
  outside : ∀ k, k ≠ .compute → inSubnet covers d k e.addr = false
  no_group : e.asgs = []
  vnet : .VirtualNetwork ∈ e.tags
  only_vnet : ∀ t ∈ e.tags, t = .VirtualNetwork
  not_dc : ∀ p ∈ d.vars.domain_controller_ip_addresses, covers p e.addr = false

/-- The service is what the flow uses. -/
def Service.Used (d : Deployment) (s : Service) (f : Flow Addr) : Prop :=
  s.1.covers f.protocol = true ∧ (∃ ps, get? d.service_ports s.2.1 = some ps ∧ ∃ p ∈ ps, p.contains f.port = true) ∧
    sideMatches covers (resolve d) s.2.2 f.dst = true

variable {covers} {c : AzhopConfig} {d : Deployment}

/-- The sides a compute node matches. -/
theorem ComputeNode.side_iff {e : Endpoint Addr} (h : ComputeNode covers d e) (s : Side) :
    sideMatches covers (resolve d) s e = true ↔ s = .subnet .compute ∨ s = .tag .VirtualNetwork := by
  cases s with
  | asg a => simp [h.no_group]
  | subnet k =>
    rw [side_subnet]
    by_cases hk : k = .compute
    · subst hk
      simp [h.inside]
    · simp [h.outside k hk, hk]
  | tag t =>
    rw [side_tag]
    constructor
    · intro ht
      exact .inr (by rw [h.only_vnet t ht])
    · rintro (ht | ht)
      · cases ht
      · cases ht
        exact h.vnet
  | dc =>
    rw [side_dc]
    split
    · refine iff_of_false ?_ (by simp)
      rintro ⟨p, hp, hcovers⟩
      rw [h.not_dc p hp] at hcovers
      cases hcovers
    · simp [h.no_group]

/-- Of the network a compute node reaches the listed services and nothing else,
for every configuration, port and destination. -/
theorem compute_confined {rules : List SecurityRule} (h : azhop c = some d) (hr : securityRules d = some rules) {f : Flow Addr}
    (hsrc : ComputeNode covers d f.src) (hdst : .VirtualNetwork ∈ f.dst.tags) :
    verdict covers .Inbound rules f = .Allow ↔
      ∃ e ∈ computeServices d.vars, e.1 = true ∧ ∃ s ∈ e.2, Service.Used covers d s f := by
  rw [vnet_allow_iff h hr .Inbound hsrc.vnet hdst, (azhop_parts h).nsgRules]
  have hservice : (∃ e ∈ computeServices d.vars, e.1 = true ∧ ∃ s ∈ e.2, Service.Used covers d s f) ↔
      ∃ s, (∃ e ∈ computeServices d.vars, e.1 = true ∧ s ∈ e.2) ∧ Service.Used covers d s f := by
    constructor
    · rintro ⟨e, he, hon, s, hs, hused⟩
      exact ⟨s, ⟨e, he, hon, hs⟩, hused⟩
    · rintro ⟨s, ⟨e, he, hon, hs⟩, hused⟩
      exact ⟨e, he, hon, s, hs, hused⟩
  rw [hservice]
  constructor
  · rintro ⟨x, hx, ha, hm⟩
    obtain ⟨b, hb, hon, hxb⟩ := mem_nsgRules.1 hx
    have hlisted : (x.2.protocol, x.2.ports, x.2.destination) ∈ fromCompute b.2 :=
      mem_fromCompute.2 ⟨x, hxb, hm.direction, ha, (hsrc.side_iff _).1 hm.source, rfl⟩
    exact ⟨_, (mem_computeServices d.vars _).1 ⟨b, hb, hon, hlisted⟩, hm.protocol, hm.port, hm.destination⟩
  · rintro ⟨s, hlisted, hprotocol, hport, hdestination⟩
    obtain ⟨b, hb, hon, hs⟩ := (mem_computeServices d.vars s).2 hlisted
    obtain ⟨x, hx, hdir, ha, hsource, rfl⟩ := mem_fromCompute.1 hs
    exact ⟨x, mem_nsgRules.2 ⟨b, hb, hon, hx⟩, ha, hdir, hprotocol, hport, (hsrc.side_iff _).2 hsource, hdestination⟩

end

/-- RDP from a compute node at 10.0.1.4 to a Windows host at 10.0.0.20. -/
def rdpFlow : Flow Lib.Ipv4.Address where
  src := { addr := ⟨167772420, by decide⟩, asgs := [], tags := [.VirtualNetwork] }
  dst := { addr := ⟨167772180, by decide⟩, asgs := [.asg_ad_client, .asg_rdp], tags := [.VirtualNetwork] }
  protocol := .tcp
  port := ⟨3389, by decide⟩

theorem compute_confined_rdp : ∃ rules, securityRules smallDeployment = some rules ∧
    verdict Lib.Ipv4.covers .Inbound rules rdpFlow ≠ .Allow := by
  obtain ⟨rules, hr⟩ := small_rules
  refine ⟨rules, hr, ?_⟩
  have hsrc : ComputeNode Lib.Ipv4.covers smallDeployment rdpFlow.src := by
    refine ⟨by decide, ?_, rfl, by decide, by decide, by decide⟩
    intro k hk
    cases k <;> first | exact absurd rfl hk | decide
  rw [Ne, compute_confined azhop_small hr hsrc (by decide)]
  unfold Service.Used
  decide

end AzHop.Bicep
