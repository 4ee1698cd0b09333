import AzHop.BicepRefs
import AzHop.Lib.Ipv4
/-!
# What the Bicep deployment opens to the Internet

A packet from the Internet is in no prefix of the vnet and from no security
group, so of all the rows of the template only the two of the `internet` block
can match it (`source_internet`), and they are emitted under `public_ip` only.

Trusted: the tags of an address and the groups of an interface are Azure's;
`FromInternet` says what is used of them.
-/
namespace AzHop.Bicep
open Lib.Objects

section
variable {Addr : Type} (covers : String → Addr → Bool)

/-- A source on the Internet. An address of the vnet has the tag
`VirtualNetwork`, and only interfaces in the vnet are members of a security group. -/
structure FromInternet (d : Deployment) (e : Endpoint Addr) : Prop where
  internet : .Internet ∈ e.tags
  not_vnet : .VirtualNetwork ∉ e.tags
  not_lb : .AzureLoadBalancer ∉ e.tags
  not_dc : ∀ p ∈ d.vars.domain_controller_ip_addresses, covers p e.addr = false
  vnet_tagged : covers d.vnet_cidr e.addr = true → .VirtualNetwork ∈ e.tags
  member_tagged : ∀ a ∈ e.asgs, .VirtualNetwork ∈ e.tags

/-- Every subnet's prefix is inside the vnet's. -/
def SubnetsInVnet (d : Deployment) : Prop :=
  ∀ k s, get? d.subnets k = some s → ∀ a, covers s.cidr a = true → covers d.vnet_cidr a = true

end

/-! ## Rows with an Internet source -/

set_option maxRecDepth 10000 in
/-- The service tags a row has as its source. -/
theorem source_tags : ∀ x ∈ templateRows, ∀ t, x.2.source = .tag t → t = .Internet ∨ t = .VirtualNetwork := by
  have h : ∀ x ∈ templateRows, x.2.source ≠ .tag .AzureCloud ∧ x.2.source ≠ .tag .AzureLoadBalancer := by decide
  intro x hx t ht
  cases t with
  | Internet => exact .inl rfl
  | VirtualNetwork => exact .inr rfl
  | AzureCloud => exact absurd ht (h x hx).1
  | AzureLoadBalancer => exact absurd ht (h x hx).2

/-- A row with an Internet source is in the `internet` block, whose condition
is `public_ip`. -/
theorem internet_row {v : Vars} {x : String × Row} (hx : x ∈ nsgRules v) (hs : x.2.source = .tag .Internet) :
    v.enablePublicIP = true ∧ x ∈ nsg_rules.internet := by
  obtain ⟨b, hb, hc, hx⟩ := mem_nsgRules.1 hx
  have hno : ∀ rows : Rows, (∀ x ∈ rows, x.2.source ≠ .tag .Internet) → x ∉ rows := fun rows h hm => h x hm hs
  simp only [nsgBlocks, List.mem_cons, List.not_mem_nil, or_false] at hb
  rcases hb with rfl | rfl | rfl | rfl | rfl | rfl | rfl | rfl | rfl | rfl | rfl | rfl | rfl <;> dsimp only at hc hx
  case inr.inr.inr.inl => exact ⟨hc, hx⟩
  all_goals exact absurd hx (hno _ (by decide))

/-! ## The two openings -/

section
variable {Addr : Type} {covers : String → Addr → Bool} {c : AzhopConfig} {d : Deployment}

/-- The only side a source on the Internet matches is the tag. -/
theorem source_internet (h : azhop c = some d) (hin : SubnetsInVnet covers d) {e : Endpoint Addr}
    (he : FromInternet covers d e) {x : String × Row} (hx : x ∈ d.nsgRules)
    (hm : sideMatches covers (resolve d) x.2.source e = true) : x.2.source = .tag .Internet := by
  have hx' : x ∈ templateRows := mem_templateRows ((azhop_parts h).nsgRules ▸ hx)
  cases hs : x.2.source with
  | asg a =>
    rw [hs, side_asg] at hm
    exact absurd (he.member_tagged a hm) he.not_vnet
  | subnet k =>
    rw [hs, side_subnet, inSubnet] at hm
    split at hm
    · exact absurd (he.vnet_tagged (hin _ _ ‹_› _ hm)) he.not_vnet
    · cases hm
  | tag t =>
    rw [hs, side_tag] at hm
    rcases source_tags x hx' t hs with rfl | rfl
    · rfl
    · exact absurd hm he.not_vnet
  | dc =>
    rw [hs, side_dc] at hm
    split at hm
    · obtain ⟨p, hp, hc⟩ := hm
      rw [he.not_dc p hp] at hc
      cases hc
    · exact absurd (he.member_tagged .asg_ad hm) he.not_vnet

/-- SSH to the jumpbox group, and HTTP to the frontend subnet. -/
def Opened (covers : String → Addr → Bool) (d : Deployment) (f : Flow Addr) : Prop :=
  (f.protocol = .tcp ∧ (f.port.val : Int) = d.vars.incomingSSHPort ∧ .asg_jumpbox ∈ f.dst.asgs) ∨
    (f.protocol = .tcp ∧ (f.port.val = 80 ∨ f.port.val = 443) ∧ inSubnet covers d .frontend f.dst.addr = true)

/-- Which packets from the Internet a row of the block matches. -/
theorem internet_matches (h : azhop c = some d) {f : Flow Addr} (hi : .Internet ∈ f.src.tags) :
    (∃ x ∈ nsg_rules.internet, RowMatches covers (get? d.service_ports) (resolve d) .Inbound x.2 f) ↔
      Opened covers d f := by
  have hssh : get? (service_ports d.vars) .HubSsh = some [.one d.vars.incomingSSHPort] := rfl
  have hweb : get? (service_ports d.vars) .Web = some [.one 443, .one 80] := rfl
  have hport : (f.port.val : Int) = 443 ∨ (f.port.val : Int) = 80 ↔ f.port.val = 80 ∨ f.port.val = 443 := by omega
  simp [nsg_rules.internet, rowMatches_iff, (azhop_parts h).service_ports, hssh, hweb, hi, Opened, hport]

/-- Azure's own rules let nothing in from the Internet. -/
theorem default_from_internet {f : Flow Addr} (hf : FromInternet covers d f.src) {r : SecurityRule}
    (hm : r ∈ defaultRules) (hh : r.matches covers .Inbound f = true) : r.access = .Deny := by
  obtain ⟨hdir, -, -, hs, -⟩ := matches_iff.1 hh
  simp only [defaultRules, List.mem_cons, List.not_mem_nil, or_false] at hm
  rcases hm with rfl | rfl | rfl | rfl | rfl | rfl
  · exact absurd (matches_tag.1 hs) hf.not_vnet
  · exact absurd (matches_tag.1 hs) hf.not_lb
  · rfl
  all_goals cases hdir

theorem allow_from_internet_iff {rules : List SecurityRule} (h : azhop c = some d) (hr : securityRules d = some rules)
    (hin : SubnetsInVnet covers d) {f : Flow Addr} (hf : FromInternet covers d f.src) :
    verdict covers .Inbound rules f = .Allow ↔ d.vars.enablePublicIP = true ∧ Opened covers d f := by
  have hrows := (azhop_parts h).nsgRules
  rw [← internet_matches h hf.internet]
  constructor
  · intro hv
    obtain ⟨r, hmem, hh, ha⟩ := rule_of_allow hv
    rcases List.mem_append.1 hmem with hm | hm
    · obtain ⟨x, hx, hxr⟩ := row_of_rule hr hm
      have hrow := (matches_row_iff hxr).1 hh
      obtain ⟨hpub, hxi⟩ := internet_row (hrows ▸ hx) (source_internet h hin hf hx hrow.source)
      exact ⟨hpub, x, hxi, hrow⟩
    · rw [default_from_internet hf hm hh] at ha
      cases ha
  · rintro ⟨hpub, x, hx, hrow⟩
    have hxd := emitted h (d.vars.enablePublicIP, nsg_rules.internet) (by simp [nsgBlocks]) hpub hx
    have ha : ∀ x ∈ nsg_rules.internet, x.2.access = .Allow := by decide
    exact allow_of_row hr (hrows ▸ nsgRules_allowFirst d.vars) hxd (ha x hx) hrow

theorem no_public_ip (h : azhop c = some d) (hpub : d.vars.enablePublicIP = false) {n : String} {vm : VmEntry}
    (hx : (n, vm) ∈ d.vms) : vm.hasPublicIp = false := by
  obtain ⟨e, he, -, -, hx⟩ := mem_build (azhop_parts h).vms hx
  simp only [vmEntries, List.mem_cons, List.not_mem_nil, or_false] at he
  rcases he with rfl | rfl | rfl | rfl | rfl | rfl | rfl | rfl <;>
    simp only [adVm, Option.map_eq_some_iff, Option.bind_eq_bind, Option.bind_eq_some_iff, Option.pure_def,
      Option.some.injEq] at hx
  · obtain ⟨o, -, rfl⟩ := hx
    simp [VmEntry.hasPublicIp, hpub]
  · subst hx
    simp [VmEntry.hasPublicIp, hpub]
  · subst hx
    simp [VmEntry.hasPublicIp]
  · obtain ⟨ad, -, sku, -, rfl⟩ := hx
    simp [VmEntry.hasPublicIp]
  · obtain ⟨o, -, rfl⟩ := hx
    simp [VmEntry.hasPublicIp, hpub]
  · obtain ⟨ad, -, sku, -, rfl⟩ := hx
    simp [VmEntry.hasPublicIp]
  · obtain ⟨o, -, rfl⟩ := hx
    simp [VmEntry.hasPublicIp, hpub]
  · obtain ⟨o, -, rfl⟩ := hx
    simp [VmEntry.hasPublicIp]

/-- The Internet reaches the deployment through its two openings only, and only
with `public_ip`; without it no VM has a public address. -/
theorem internet_exposure {rules : List SecurityRule} (h : azhop c = some d) (hr : securityRules d = some rules)
    (hin : SubnetsInVnet covers d) :
    (∀ f : Flow Addr, FromInternet covers d f.src →
      (verdict covers .Inbound rules f = .Allow ↔ d.vars.enablePublicIP = true ∧ Opened covers d f)) ∧
    (d.vars.enablePublicIP = false → ∀ x ∈ d.vms, x.2.hasPublicIp = false) :=
  ⟨fun _ hf => allow_from_internet_iff h hr hin hf, fun hpub _ hx => no_public_ip h hpub hx⟩

end

/-! ## A small deployment -/

def smallDeployment : Deployment := (azhop smallConfig).get rfl

theorem azhop_small : azhop smallConfig = some smallDeployment := rfl

theorem small_rules : ∃ rules, securityRules smallDeployment = some rules :=
  securityRules_of_refs_ok (refs_ok_of_agree azhop_small ⟨by decide, by decide, by decide, by decide⟩)

theorem small_in_vnet : SubnetsInVnet Lib.Ipv4.covers smallDeployment := by
  intro k s hs a ha
  have hvnet : Lib.Ipv4.prefix? smallDeployment.vnet_cidr.toList = some ⟨167772160, 23⟩ := by decide
  cases k with
  | frontend =>
    obtain rfl := Option.some.inj hs
    exact Lib.Ipv4.covers_of_within (p := ⟨167772160, 29⟩) (by decide) hvnet (by decide) (by decide) ha
  | admin =>
    obtain rfl := Option.some.inj hs
    exact Lib.Ipv4.covers_of_within (p := ⟨167772176, 28⟩) (by decide) hvnet (by decide) (by decide) ha
  | compute =>
    obtain rfl := Option.some.inj hs
    exact Lib.Ipv4.covers_of_within (p := ⟨167772416, 24⟩) (by decide) hvnet (by decide) (by decide) ha
  | _ => cases hs

/-- SSH from 203.0.113.5 to a jumpbox at 10.0.0.4. -/
def sshFlow : Flow Lib.Ipv4.Address where
  src := { addr := 3405803781, asgs := [], tags := [.Internet] }
  dst := { addr := 167772164, asgs := [.asg_jumpbox], tags := [.VirtualNetwork] }
  protocol := .tcp
  port := ⟨22, by decide⟩

theorem internet_exposure_small : ∃ rules, securityRules smallDeployment = some rules ∧
    verdict Lib.Ipv4.covers .Inbound rules sshFlow = .Allow := by
  obtain ⟨rules, hr⟩ := small_rules
  have hf : FromInternet Lib.Ipv4.covers smallDeployment sshFlow.src :=
    ⟨by decide, by decide, by decide, by decide, by decide, by decide⟩
  exact ⟨rules, hr, ((internet_exposure azhop_small hr small_in_vnet).1 sshFlow hf).2 ⟨rfl, .inl ⟨rfl, rfl, by decide⟩⟩⟩

end AzHop.Bicep
