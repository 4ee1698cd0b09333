import AzHop.Exposure
import AzHop.Terraform
/-!
# Flow symmetry

A flow between two machines passes the group twice: outbound at its source,
inbound at its destination. The deny rules at the end of each direction make
both count, so every allow row needs a partner of the other direction. Most
blocks are balanced; where one is not, the flows it loses are the exact
condition of `flow_symmetry_iff`.
-/
namespace AzHop
open Lib.Objects

def Direction.other : Direction → Direction
  | .Inbound => .Outbound
  | .Outbound => .Inbound

def Target.isTag : Target → Bool
  | .tag _ => true
  | _ => false

def Side.isTag : Side → Bool
  | .tag _ => true
  | _ => false

/-- A side of the row is a service tag. -/
def Row.tagged (x : Row) : Bool := x.source.isTag || x.destination.isTag

/-- What a side resolves to is a tag when the side is. -/
def KeepsTags (resolve : Side → Option Target) : Prop := ∀ s t, resolve s = some t → t.isTag = s.isTag

/-- `y` allows in the other direction what `x` matches. -/
def Row.partner (x y : Row) : Bool :=
  y.access = .Allow && y.direction = x.direction.other && y.protocol = x.protocol && y.ports = x.ports &&
    y.source = x.source && y.destination = x.destination

/-- Every allow row between named machines has its partner. -/
def Balanced (rows : Rows) : Prop :=
  ∀ x ∈ rows, x.2.access = .Allow → x.2.tagged = false → ∃ y ∈ rows, x.2.partner y.2 = true

section
variable {Addr : Type} (covers : String → Addr → Bool)

/-- The flow is allowed in direction `d` by a rule neither side of which is a
service tag. -/
def Intended (d : Direction) (rules : List SecurityRule) (f : Flow Addr) : Prop :=
  ∃ r, decider covers d (rules ++ defaultRules) f = some r ∧ r.access = .Allow ∧
    r.source.isTag = false ∧ r.destination.isTag = false

/-- What is intended in one direction is allowed in the other. -/
def Symmetric (rules : List SecurityRule) (placed : Endpoint Addr → Prop) : Prop :=
  ∀ f : Flow Addr, placed f.src → placed f.dst → ∀ d, Intended covers d rules f → verdict covers d.other rules f = .Allow

variable {covers} {ports : PortKey → Option (List PortRange)} {resolve : Side → Option Target} {rows : Rows}
  {rules : List SecurityRule} {d : Direction} {f : Flow Addr}

theorem rowMatches_of_partner {x y : Row} (hp : x.partner y = true) (h : RowMatches covers ports resolve d x f) :
    RowMatches covers ports resolve d.other y f := by
  simp only [Row.partner, Bool.and_eq_true, decide_eq_true_eq] at hp
  obtain ⟨⟨⟨⟨⟨-, hdir⟩, hproto⟩, hports⟩, hs⟩, hd⟩ := hp
  exact ⟨by rw [hdir, h.direction], hproto ▸ h.protocol, hports ▸ h.port, hs ▸ h.source, hd ▸ h.destination⟩

variable (hr : rows.mapM (securityRule ports resolve) = some rules)
include hr

/-- An intended flow matches an allow row between named machines. -/
theorem row_of_intended (ht : KeepsTags resolve) (h : Intended covers d rules f) :
    ∃ x ∈ rows, x.2.access = .Allow ∧ x.2.tagged = false ∧ RowMatches covers ports resolve d x.2 f := by
  obtain ⟨r, hd, ha, hs, ht'⟩ := h
  obtain ⟨hm, hh⟩ := Lib.FirstMatch.decider_mem hd
  rcases List.mem_append.1 hm with hm | hm
  · obtain ⟨x, hx, hxr⟩ := row_of_rule hr hm
    obtain ⟨-, hsrc, hdst, -, -, hacc, -⟩ := securityRule_eq hxr
    refine ⟨x, hx, hacc ▸ ha, ?_, (matches_row_iff hxr).1 hh⟩
    rw [Row.tagged, ← ht _ _ hsrc, ← ht _ _ hdst, hs, ht', Bool.or_false]
  · -- an allow rule of Azure's own has a tag on one side
    have htag : ∀ r ∈ defaultRules, r.access = .Allow → (r.source.isTag || r.destination.isTag) = true := by decide
    have := htag r hm ha
    rw [hs, ht'] at this
    cases this

variable (hl : AllowFirst rows)
include hl

theorem allow_of_partner {x y : String × Row} (hy : y ∈ rows) (hp : x.2.partner y.2 = true)
    (h : RowMatches covers ports resolve d x.2 f) : verdict covers d.other rules f = .Allow := by
  have hp' := hp
  simp only [Row.partner, Bool.and_eq_true, decide_eq_true_eq] at hp'
  exact allow_of_row hr hl hy hp'.1.1.1.1.1 (rowMatches_of_partner hp h)

/-- A flow that a row matches before the deny rows is intended, when no
matching allow row has a tag. -/
theorem intended_of_row (ht : KeepsTags resolve) {x : String × Row} (hx : x ∈ rows)
    (ha : x.2.access = .Allow) (hm : RowMatches covers ports resolve d x.2 f)
    (hno : ∀ y ∈ rows, y.2.access = .Allow → RowMatches covers ports resolve d y.2 f → y.2.tagged = false) :
    Intended covers d rules f := by
  obtain ⟨y, hy, r, hmem, hyr, hd, hym, hle⟩ := decided_by_row hr hl hx hm
  obtain ⟨-, hsrc, hdst, -, -, hacc, -⟩ := securityRule_eq hyr
  have hya : y.2.access = .Allow := by
    rcases (hl x hx).2 with ⟨-, hpx⟩ | ⟨hden, -⟩
    · rcases (hl y hy).2 with ⟨hya, -⟩ | ⟨-, hpy⟩
      · exact hya
      · omega
    · rw [ha] at hden
      cases hden
  have hnot := Bool.or_eq_false_iff.1 (hno y hy hya hym)
  exact ⟨r, hd, hacc.trans hya, (ht _ _ hsrc).trans hnot.1, (ht _ _ hdst).trans hnot.2⟩

end

/-- The scheduler's ports, the same in both backends. -/
theorem sched_closed (slurm : Prop) [Decidable slurm] :
    ∀ p ∈ (if slurm then [PortRange.span 6817 6819, .span 59000 61000]
      else [.one 6200, .span 15001 15009, .one 17001, .span 32768 61000]), p.contains 389 = false ∧ p.contains 445 = false := by
  split <;> decide

/-! ## Bicep -/

namespace Bicep

theorem keepsTags (d : Deployment) : KeepsTags (resolve d) := by
  intro s t h
  cases s with
  | subnet k =>
    obtain ⟨x, -, rfl⟩ := Option.map_eq_some_iff.1 h
    rfl
  | dc =>
    obtain rfl := Option.some.inj h
    unfold Vars.nsgTargetForDC
    split <;> rfl
  | _ =>
    obtain rfl := Option.some.inj h
    rfl

section
variable {Addr : Type} (covers : String → Addr → Bool)

/-- The address is in subnet `k`, which has the common group. -/
def NsgSubnet (d : Deployment) (k : SubnetKey) (a : Addr) : Prop :=
  ∃ s, get? d.subnets k = some s ∧ s.carriesNsg = true ∧ covers s.cidr a = true

/-- An interface in a subnet with the common group. -/
def Placed (d : Deployment) (e : Endpoint Addr) : Prop :=
  .VirtualNetwork ∈ e.tags ∧ ∃ k, NsgSubnet covers d k e.addr

def SubnetsDisjoint (d : Deployment) : Prop :=
  ∀ k k' a, inSubnet covers d k a = true → inSubnet covers d k' a = true → k = k'

/-- The address of an existing domain controller. -/
def isDc (d : Deployment) (a : Addr) : Prop := ∃ p ∈ d.vars.domain_controller_ip_addresses, covers p a = true

/-- The pairs of addresses the `ad_anf` block leaves open one way only: an
address of the NetApp subnet and one of a domain controller. Existing
controllers are addresses; a pair of them is covered where the rows towards
the compute and NetApp subnets cover it. -/
def DcGap (d : Deployment) : Prop :=
  d.vars.userAuth = .ad ∧ d.vars.create_anf = true ∧
    ∃ a b k, inSubnet covers d .netapp a = true ∧ NsgSubnet covers d k b ∧
      (d.vars.useExistingAD = true → isDc covers d b ∧ ¬ (isDc covers d a ∧ (k = .compute ∨ k = .netapp)))

variable {covers} {c : AzhopConfig} {d : Deployment}

theorem NsgSubnet.inSubnet {k : SubnetKey} {a : Addr} (h : NsgSubnet covers d k a) : inSubnet covers d k a = true := by
  obtain ⟨s, hs, -, hc⟩ := h
  simpa [Bicep.inSubnet, hs] using hc

/-- Every subnet but the gateway's has the common group. -/
theorem carriesNsg_iff (h : azhop c = some d) {k : SubnetKey} {s : Subnet} (hs : get? d.subnets k = some s) :
    s.carriesNsg = true ↔ k ≠ .gateway := by
  obtain ⟨e, he, -, rfl, hx⟩ := mem_build (azhop_parts h).subnets (mem_of_get? hs)
  simp only [subnetEntries, List.mem_cons, List.not_mem_nil, or_false] at he
  rcases he with rfl | rfl | rfl | rfl | rfl | rfl | rfl | rfl | rfl | rfl <;>
    simp only [subnet, fixedSubnet, Option.map_eq_some_iff, Option.bind_eq_bind, Option.bind_eq_some_iff,
      Option.pure_def, Option.some.injEq] at hx
  · obtain ⟨_, ⟨_, -, rfl⟩, rfl⟩ := hx
    simp [Subnet.carriesNsg]
  · obtain ⟨_, ⟨_, -, rfl⟩, rfl⟩ := hx
    simp [Subnet.carriesNsg]
  · obtain ⟨_, ⟨_, -, rfl⟩, rfl⟩ := hx
    simp [Subnet.carriesNsg]
  · obtain ⟨_, ⟨_, -, _, -, rfl⟩, rfl⟩ := hx
    simp [Subnet.carriesNsg]
  · obtain ⟨_, ⟨_, -, _, -, rfl⟩, rfl⟩ := hx
    simp [Subnet.carriesNsg]
  · obtain ⟨_, -, _, -, rfl⟩ := hx
    simp [Subnet.carriesNsg]
  · obtain ⟨_, ⟨_, -, _, -, rfl⟩, rfl⟩ := hx
    simp [Subnet.carriesNsg]
  · obtain ⟨_, -, _, -, rfl⟩ := hx
    simp [Subnet.carriesNsg]
  · obtain ⟨_, ⟨_, -, _, -, rfl⟩, rfl⟩ := hx
    simp [Subnet.carriesNsg]
  · obtain ⟨_, -, _, -, rfl⟩ := hx
    simp [Subnet.carriesNsg]

/-- No interface of a subnet with the common group is in the gateway subnet. -/
theorem not_gateway (h : azhop c = some d) (hdis : SubnetsDisjoint covers d) {e : Endpoint Addr} (he : Placed covers d e) :
    inSubnet covers d .gateway e.addr = false := by
  obtain ⟨-, k, hk⟩ := he
  cases hg : inSubnet covers d .gateway e.addr with
  | false => rfl
  | true =>
    obtain ⟨s, hs, hc, -⟩ := id hk
    exact absurd (hdis _ _ _ hk.inSubnet hg) ((carriesNsg_iff h hs).1 hc)

/-! ### Balanced blocks -/

set_option maxRecDepth 10000 in
/-- The blocks that open what they open in both directions. -/
theorem balanced_blocks : ∀ b ∈ [nsg_rules.«default», nsg_rules.ad, nsg_rules.internet, nsg_rules.hub, nsg_rules.bastion,
    nsg_rules.anf, nsg_rules.lustre, nsg_rules.grafana, nsg_rules.ondemand, nsg_rules.mysql, nsg_rules.deployer],
    Balanced b := by
  unfold Balanced
  decide

/-- An emitted allow row between named machines has an emitted partner, unless
it is one of the gateway's or of the `ad_anf` block. -/
theorem partner_or (h : azhop c = some d) {x : String × Row} (hx : x ∈ d.nsgRules) (ha : x.2.access = .Allow)
    (ht : x.2.tagged = false) :
    (∃ y ∈ d.nsgRules, x.2.partner y.2 = true) ∨ x ∈ nsg_rules.gateway ∨
      (d.vars.userAuth = .ad ∧ d.vars.create_anf = true ∧ x ∈ nsg_rules.ad_anf) := by
  have hx' := hx
  rw [(azhop_parts h).nsgRules, mem_nsgRules] at hx'
  obtain ⟨b, hb, hc, hxb⟩ := hx'
  have hbal : Balanced b.2 → ∃ y ∈ d.nsgRules, x.2.partner y.2 = true := by
    intro hbal
    obtain ⟨y, hy, hp⟩ := hbal x hxb ha ht
    exact ⟨y, emitted h b hb hc hy, hp⟩
  simp only [nsgBlocks, List.mem_cons, List.not_mem_nil, or_false] at hb
  rcases hb with rfl | rfl | rfl | rfl | rfl | rfl | rfl | rfl | rfl | rfl | rfl | rfl | rfl
  case inr.inr.inl =>
    simp only [Bool.and_eq_true, decide_eq_true_eq] at hc
    exact .inr (.inr ⟨hc.1, hc.2, hxb⟩)
  case inr.inr.inr.inr.inr.inr.inl => exact .inr (.inl hxb)
  all_goals exact .inl (hbal (balanced_blocks _ (by simp)))

set_option maxRecDepth 10000 in
/-- The rows of the `ad_anf` block, and the rows that open the other direction
when the other end is in the compute or the NetApp subnet. -/
theorem ad_anf_rows : ∀ x ∈ nsg_rules.ad_anf, ∀ k ∈ [SubnetKey.compute, .netapp],
    ∃ y ∈ nsg_rules.ad ++ nsg_rules.ad_anf, y.2.access = .Allow ∧ y.2.direction = x.2.direction.other ∧
      y.2.protocol = x.2.protocol ∧ y.2.ports = x.2.ports ∧
      ((x.2.source = .subnet .netapp ∧ x.2.destination = .dc ∧ y.2.source = .dc ∧ y.2.destination = .subnet k) ∨
        (x.2.source = .dc ∧ x.2.destination = .subnet .netapp ∧ y.2.source = .subnet k ∧ y.2.destination = .dc)) := by
  decide

/-- Without a gap both ends of such a pair are controllers, and the controller's
end is in the compute or the NetApp subnet. -/
theorem both_dc (hg : ¬ DcGap covers d) (hu : d.vars.userAuth = .ad) (hanf : d.vars.create_anf = true)
    {n e : Endpoint Addr} (hn : inSubnet covers d .netapp n.addr = true) (he : Placed covers d e)
    (hdc : sideMatches covers (resolve d) .dc e = true) :
    sideMatches covers (resolve d) .dc n = true ∧
      ∃ k ∈ [SubnetKey.compute, .netapp], inSubnet covers d k e.addr = true := by
  obtain ⟨-, k, hk⟩ := he
  rw [side_dc] at hdc ⊢
  by_cases hex : d.vars.useExistingAD = true
  · simp only [hex, if_true] at hdc ⊢
    have hdcs : isDc covers d n.addr ∧ (k = .compute ∨ k = .netapp) := by
      by_contra hno
      exact hg ⟨hu, hanf, n.addr, e.addr, k, hn, hk, fun _ => ⟨hdc, hno⟩⟩
    exact ⟨hdcs.1, k, by simpa using hdcs.2, hk.inSubnet⟩
  · exact absurd ⟨hu, hanf, n.addr, e.addr, k, hn, hk, fun h => absurd h hex⟩ hg

theorem symmetric_of_no_gap {rules : List SecurityRule} (h : azhop c = some d) (hr : securityRules d = some rules)
    (hdis : SubnetsDisjoint covers d) (hg : ¬ DcGap covers d) : Symmetric covers rules (Placed covers d) := by
  intro f hsrc hdst dir hi
  have hl : AllowFirst d.nsgRules := (azhop_parts h).nsgRules ▸ nsgRules_allowFirst d.vars
  obtain ⟨x, hx, ha, ht, hm⟩ := row_of_intended hr (keepsTags d) hi
  rcases partner_or h hx ha ht with ⟨y, hy, hp⟩ | hgw | ⟨hu, hanf, hxa⟩
  · exact allow_of_partner hr hl hy hp hm
  · -- the gateway subnet has no common group
    obtain rfl := List.mem_singleton.1 hgw
    have hs := hm.source
    rw [side_subnet, not_gateway h hdis hsrc] at hs
    cases hs
  · have hemit : ∀ y ∈ nsg_rules.ad ++ nsg_rules.ad_anf, y ∈ d.nsgRules := by
      intro y hy
      rcases List.mem_append.1 hy with hy | hy
      · exact emitted h (d.vars.userAuth = .ad, nsg_rules.ad) (by simp [nsgBlocks]) (by simpa using hu) hy
      · exact emitted h (d.vars.userAuth = .ad && d.vars.create_anf, nsg_rules.ad_anf) (by simp [nsgBlocks])
          (by simp [hu, hanf]) hy
    have hends : (sideMatches covers (resolve d) .dc f.src = true ∧ ∃ k ∈ [SubnetKey.compute, .netapp],
        inSubnet covers d k f.dst.addr = true ∧ x.2.source = .subnet .netapp) ∨
        (sideMatches covers (resolve d) .dc f.dst = true ∧ ∃ k ∈ [SubnetKey.compute, .netapp],
        inSubnet covers d k f.src.addr = true ∧ x.2.source = .dc) := by
      obtain ⟨-, -, -, -, -, -, ⟨hs, hd, -⟩ | ⟨hs, hd, -⟩⟩ := ad_anf_rows x hxa .compute (by decide)
      · have hs' := hm.source
        have hd' := hm.destination
        rw [hs, side_subnet] at hs'
        rw [hd] at hd'
        obtain ⟨hdc, k, hk, hin⟩ := both_dc hg hu hanf hs' hdst hd'
        exact .inl ⟨hdc, k, hk, hin, hs⟩
      · have hs' := hm.source
        have hd' := hm.destination
        rw [hd, side_subnet] at hd'
        rw [hs] at hs'
        obtain ⟨hdc, k, hk, hin⟩ := both_dc hg hu hanf hd' hsrc hs'
        exact .inr ⟨hdc, k, hk, hin, hs⟩
    rcases hends with ⟨hdc, k, hk, hin, hxs⟩ | ⟨hdc, k, hk, hin, hxs⟩
    · obtain ⟨y, hy, hya, hdir, hproto, hports, ⟨-, -, hys, hyd⟩ | ⟨hs, -⟩⟩ := ad_anf_rows x hxa k hk
      · exact allow_of_row hr hl (hemit y hy) hya ⟨by rw [hdir, hm.direction], hproto ▸ hm.protocol, hports ▸ hm.port,
          by rw [hys]; exact hdc, by rw [hyd, side_subnet]; exact hin⟩
      · rw [hxs] at hs
        cases hs
    · obtain ⟨y, hy, hya, hdir, hproto, hports, ⟨hs, -⟩ | ⟨-, -, hys, hyd⟩⟩ := ad_anf_rows x hxa k hk
      · rw [hxs] at hs
        cases hs
      · exact allow_of_row hr hl (hemit y hy) hya ⟨by rw [hdir, hm.direction], hproto ▸ hm.protocol, hports ▸ hm.port,
          by rw [hys, side_subnet]; exact hin, by rw [hyd]; exact hdc⟩

/-! ### The flows a gap loses -/

/-- UDP 389 from the NetApp subnet to a domain controller. -/
def ldapFlow (d : Deployment) (a b : Addr) : Flow Addr where
  src := { addr := a, asgs := [], tags := [.VirtualNetwork] }
  dst := { addr := b, asgs := if d.vars.useExistingAD then [] else [.asg_ad], tags := [.VirtualNetwork] }
  protocol := .udp
  port := 389

theorem closed_ports (v : Vars) {k : PortKey} (hk : k ∈ [PortKey.Shed, .Nfs, .Dns]) {ps : List PortRange}
    (hps : get? (service_ports v) k = some ps) : ∀ p ∈ ps, p.contains 389 = false ∧ p.contains 445 = false := by
  simp only [List.mem_cons, List.not_mem_nil, or_false] at hk
  rcases hk with rfl | rfl | rfl <;> obtain rfl := Option.some.inj hps
  · exact sched_closed _
  · decide
  · decide

set_option maxRecDepth 10000 in
theorem not_tcp_ports : ∀ x ∈ templateRows, x.2.protocol = .Tcp ∨ x.2.ports ∈ [PortKey.Shed, .Nfs, .Dns] ∨
    x.2.ports = .All ∨ x.2.ports = .DomainControlerUdp := by decide

/-- The port lists of the rows that can match UDP 389 or 445. -/
theorem udp_ports (h : azhop c = some d) {x : String × Row} (hx : x ∈ d.nsgRules) {f : Flow Addr} {dir : Direction}
    (hf : f.protocol = .udp ∧ (f.port = 389 ∨ f.port = 445))
    (hm : RowMatches covers (get? d.service_ports) (resolve d) dir x.2 f) :
    x.2.protocol ≠ .Tcp ∧ (x.2.ports = .All ∨ x.2.ports = .DomainControlerUdp) := by
  have hproto : x.2.protocol ≠ .Tcp := by
    intro he
    have := hm.protocol
    rw [he, tcp_covers, hf.1] at this
    cases this
  refine ⟨hproto, ?_⟩
  obtain ⟨ps, hps, p, hp, hc⟩ := hm.port
  rw [(azhop_parts h).service_ports] at hps
  rcases not_tcp_ports x (mem_templateRows ((azhop_parts h).nsgRules ▸ hx)) with ht | hk | hk
  · exact absurd ht hproto
  · obtain ⟨h389, h445⟩ := closed_ports d.vars hk hps p hp
    rcases hf.2 with hq | hq
    · rw [hq, h389] at hc
      cases hc
    · rw [hq, h445] at hc
      cases hc
  · exact hk

set_option maxRecDepth 10000 in
/-- The allow rows outbound for UDP 389. -/
theorem ldap_out_rows : ∀ x ∈ templateRows, x.2.direction = .Outbound → x.2.access = .Allow → x.2.protocol ≠ .Tcp →
    x.2.ports = .All ∨ x.2.ports = .DomainControlerUdp →
    (x.2.source, x.2.destination) ∈ [(Side.asg .asg_ad_client, Side.dc), (.subnet .compute, .dc),
      (.dc, .asg .asg_ad_client), (.dc, .subnet .compute), (.dc, .subnet .netapp), (.subnet .lustre, .subnet .lustre),
      (.tag .VirtualNetwork, .tag .AzureCloud)] := by decide

set_option maxRecDepth 10000 in
theorem ldap_in_rows : ∀ x ∈ templateRows, x.2.direction = .Inbound → x.2.access = .Allow → x.2.protocol ≠ .Tcp →
    x.2.ports = .All ∨ x.2.ports = .DomainControlerUdp → x.2.tagged = false := by decide

section
variable {a b : Addr} {k : SubnetKey}

/-- No allow row outbound matches the flow. -/
theorem ldap_out_closed (h : azhop c = some d) (hdis : SubnetsDisjoint covers d) (ha : inSubnet covers d .netapp a = true)
    (hb : NsgSubnet covers d k b)
    (hno : d.vars.useExistingAD = true → ¬ (isDc covers d a ∧ (k = .compute ∨ k = .netapp)))
    {x : String × Row} (hx : x ∈ d.nsgRules) (hacc : x.2.access = .Allow) :
    ¬ RowMatches covers (get? d.service_ports) (resolve d) .Outbound x.2 (ldapFlow d a b) := by
  intro hm
  obtain ⟨hproto, hports⟩ := udp_ports h hx ⟨rfl, .inl rfl⟩ hm
  have hrow := ldap_out_rows x (mem_templateRows ((azhop_parts h).nsgRules ▸ hx)) hm.direction hacc hproto hports
  obtain ⟨-, -, -, hs, hd⟩ := hm
  -- a controller that is a group has members, and the flow's source has none
  have hdc : sideMatches covers (resolve d) .dc (ldapFlow d a b).src = true →
      d.vars.useExistingAD = true ∧ isDc covers d a := by
    intro hside
    rw [side_dc] at hside
    by_cases hex : d.vars.useExistingAD = true
    · simp only [hex, if_true] at hside
      exact ⟨hex, hside⟩
    · simp [hex, ldapFlow] at hside
  have hk : ∀ k', (k' = .compute ∨ k' = .netapp) → sideMatches covers (resolve d) .dc (ldapFlow d a b).src = true →
      inSubnet covers d k' b = true → False := by
    intro k' hk' hside hin
    obtain ⟨hex, hdca⟩ := hdc hside
    exact hno hex ⟨hdca, hdis k k' b hb.inSubnet hin ▸ hk'⟩
  simp only [List.mem_cons, List.not_mem_nil, or_false, Prod.mk.injEq] at hrow
  rcases hrow with ⟨h1, h2⟩ | ⟨h1, h2⟩ | ⟨h1, h2⟩ | ⟨h1, h2⟩ | ⟨h1, h2⟩ | ⟨h1, h2⟩ | ⟨h1, h2⟩ <;> rw [h1] at hs <;>
    rw [h2] at hd
  · simp [ldapFlow] at hs
  · rw [side_subnet] at hs
    cases hdis _ _ _ ha hs
  · rw [side_asg] at hd
    unfold ldapFlow at hd
    split at hd <;> simp at hd
  · exact hk .compute (.inl rfl) hs (by rwa [side_subnet] at hd)
  · exact hk .netapp (.inr rfl) hs (by rwa [side_subnet] at hd)
  · rw [side_subnet] at hs
    cases hdis _ _ _ ha hs
  · simp [ldapFlow] at hd

/-- The deny row outbound matches every flow of the vnet. -/
theorem deny_row (covers : String → Addr → Bool) (h : azhop c = some d) {f : Flow Addr}
    (hs : .VirtualNetwork ∈ f.src.tags) (hd : .VirtualNetwork ∈ f.dst.tags) :
    ∃ x ∈ d.nsgRules, RowMatches covers (get? d.service_ports) (resolve d) .Outbound x.2 f := by
  have hports : get? d.service_ports .All = some [.span 0 65535] := by
    rw [(azhop_parts h).service_ports]
    rfl
  have hx := emitted h (true, nsg_rules.«default») (by simp [nsgBlocks]) rfl
    (x := ("DenyVnetOutbound", denyVnet .Outbound)) (by simp [nsg_rules.«default», denyVnet])
  exact ⟨_, hx, denyVnet_matches hports (fun _ => rfl) hs hd⟩

/-- A gap makes the group asymmetric: the flow is intended inbound and denied
outbound. -/
theorem asymmetric_of_gap {rules : List SecurityRule} (h : azhop c = some d) (hr : securityRules d = some rules)
    (hdis : SubnetsDisjoint covers d) (hg : DcGap covers d) : ¬ Symmetric covers rules (Placed covers d) := by
  intro hs
  obtain ⟨hu, hanf, a, b, k, ha, hb, hno⟩ := hg
  have hl : AllowFirst d.nsgRules := (azhop_parts h).nsgRules ▸ nsgRules_allowFirst d.vars
  have hports := (azhop_parts h).service_ports
  have hsrc : Placed covers d (ldapFlow d a b).src := by
    refine ⟨by simp [ldapFlow], .netapp, ?_⟩
    unfold inSubnet at ha
    split at ha
    · rename_i s hs
      exact ⟨s, hs, (carriesNsg_iff h hs).2 (by decide), ha⟩
    · cases ha
  have hdst : Tag.VirtualNetwork ∈ (ldapFlow d a b).dst.tags := List.mem_singleton_self _
  have hin : RowMatches covers (get? d.service_ports) (resolve d) .Inbound
      ⟨310, .Inbound, .Allow, .Udp, .DomainControlerUdp, .subnet .netapp, .dc⟩ (ldapFlow d a b) := by
    refine ⟨rfl, rfl, ?_, by rw [side_subnet]; exact ha, ?_⟩
    · rw [hports]
      exact ⟨_, rfl, .one 389, by decide, rfl⟩
    · rw [side_dc]
      by_cases hex : d.vars.useExistingAD = true
      · simp only [hex, if_true]
        exact (hno hex).1
      · simp [hex, ldapFlow]
  have hint : Intended covers .Inbound rules (ldapFlow d a b) := by
    have hx := emitted h (d.vars.userAuth = .ad && d.vars.create_anf, nsg_rules.ad_anf) (by simp [nsgBlocks])
      (by simp [hu, hanf]) (List.mem_cons_of_mem _ List.mem_cons_self)
    apply intended_of_row hr hl (keepsTags d) hx rfl hin
    intro y hy hya hym
    obtain ⟨hproto, hkeys⟩ := udp_ports h hy ⟨rfl, .inl rfl⟩ hym
    exact ldap_in_rows y (mem_templateRows ((azhop_parts h).nsgRules ▸ hy)) hym.direction hya hproto hkeys
  have hdeny : verdict covers .Outbound rules (ldapFlow d a b) = .Deny := by
    obtain ⟨x, hx, hm⟩ := deny_row covers h hsrc.1 hdst
    exact deny_of_rows hr hl hx hm (fun y hy hya => ldap_out_closed h hdis ha hb (fun hex => (hno hex).2) hy hya)
  have hallow := hs (ldapFlow d a b) hsrc ⟨hdst, k, hb⟩ .Inbound hint
  rw [show Direction.Inbound.other = .Outbound from rfl, hdeny] at hallow
  cases hallow

end

end
end Bicep

/-! ## Terraform -/

namespace Terraform

theorem keepsTags (c : AzhopConfig) (prefixes : SubnetKey → List String) : KeepsTags (resolve c prefixes) := by
  intro s t h
  unfold resolve at h
  split at h
  · split at h <;> cases h
    rfl
  · cases h
    rfl
  · split at h <;> cases h
    rfl
  · split at h
    · obtain ⟨ips, -, rfl⟩ := Option.map_eq_some_iff.1 h
      rfl
    · split at h <;> cases h
      rfl

/-- The table of the emitted blocks resolves when every row of them does. -/
theorem ruleTable_of_blocks {c : AzhopConfig} {prefixes : SubnetKey → List String}
    (h : ∀ b ∈ nsgBlocks c, b.1 = true → ∀ x ∈ b.2,
      (securityRule (get? (nsg_destination_ports c)) (resolve c prefixes) x).isSome = true) :
    ∃ rules, ruleTable c prefixes = some rules := by
  apply mapM_of_forall
  intro x hx
  obtain ⟨b, hb, hc, hxb⟩ := mem_nsg_rules.1 hx
  exact Option.isSome_iff_exists.1 (h b hb hc x hxb)

section
variable {Addr : Type} (covers : String → Addr → Bool)

/-- An interface in a subnet with an association to the common group. -/
def Placed (c : AzhopConfig) (prefixes : SubnetKey → List String) (e : Endpoint Addr) : Prop :=
  .VirtualNetwork ∈ e.tags ∧ ∃ k ∈ nsgAssociations c, ∃ p ∈ prefixes k, covers p e.addr = true

/-- The subnet, as Azure has it, has an address. -/
def Inhabited (prefixes : SubnetKey → List String) (k : SubnetKey) : Prop :=
  ∃ p ∈ prefixes k, ∃ a, covers p a = true

variable {covers} {c : AzhopConfig} {prefixes : SubnetKey → List String}

/-- UDP 445 from the compute subnet to the NetApp subnet. -/
def smbFlow (a b : Addr) : Flow Addr where
  src := { addr := a, asgs := [], tags := [.VirtualNetwork] }
  dst := { addr := b, asgs := [], tags := [.VirtualNetwork] }
  protocol := .udp
  port := 445

theorem closed_ports (c : AzhopConfig) {k : PortKey} (hk : k ∈ [PortKey.Sched, .Nfs, .Dns, .DomainControlerUdp])
    {ps : List PortRange} (hps : get? (nsg_destination_ports c) k = some ps) : ∀ p ∈ ps, p.contains 445 = false := by
  simp only [List.mem_cons, List.not_mem_nil, or_false] at hk
  rcases hk with rfl | rfl | rfl | rfl <;> obtain rfl := Option.some.inj hps
  · exact fun p hp => (sched_closed _ p hp).2
  · decide
  · decide
  · decide

set_option maxRecDepth 10000 in
theorem not_tcp_rows : ∀ x ∈ templateRows, x.2.protocol = .Tcp ∨
    x.2.ports ∈ [PortKey.Sched, .Nfs, .Dns, .DomainControlerUdp] ∨ x.2.access = .Deny ∨
    (x.2.direction = .Outbound ∧ x.2.tagged = false) := by decide

/-- The allow rows that can match the flow are outbound and between subnets. -/
theorem smb_rows {x : String × Row} (hx : x ∈ nsg_rules c) (hacc : x.2.access = .Allow) {a b : Addr} {dir : Direction}
    (hm : RowMatches covers (get? (nsg_destination_ports c)) (resolve c prefixes) dir x.2 (smbFlow a b)) :
    x.2.direction = .Outbound ∧ x.2.tagged = false := by
  rcases not_tcp_rows x (mem_templateRows hx) with ht | hk | hd | h
  · have := hm.protocol
    rw [ht] at this
    cases this
  · obtain ⟨ps, hps, p, hp, hc⟩ := hm.port
    rw [show (smbFlow a b).port = 445 from rfl, closed_ports c hk hps p hp] at hc
    cases hc
  · rw [hacc] at hd
    cases hd
  · exact h

theorem mem_subnets_compute (c : AzhopConfig) : .compute ∈ keys (subnets c) ∧ .netapp ∈ keys (subnets c) := by
  constructor <;> exact mem_keys_unionAll.2 ⟨defaultSubnets, List.mem_cons_self, by decide⟩

theorem side_subnet {k : SubnetKey} (hk : k ∈ keys (subnets c)) {e : Endpoint Addr} {p : String} (hp : p ∈ prefixes k)
    (hc : covers p e.addr = true) : sideMatches covers (resolve c prefixes) (.subnet k) e = true := by
  simp only [sideMatches, resolve, hk, if_true, Target.matches, List.any_eq_true]
  exact ⟨p, hp, hc⟩

/-- Outbound the row `AllowSMBComputeOut` matches. -/
theorem smb_out_row {a b : Addr} {p q : String} (hp : p ∈ prefixes .compute) (ha : covers p a = true)
    (hq : q ∈ prefixes .netapp) (hb : covers q b = true) :
    ∃ x ∈ nsg_rules c, x.2.access = .Allow ∧
      RowMatches covers (get? (nsg_destination_ports c)) (resolve c prefixes) .Outbound x.2 (smbFlow a b) := by
  have hx : ("AllowSMBComputeOut", ⟨455, .Outbound, .Allow, .Any, .SMB, .subnet .compute, .subnet .netapp⟩) ∈ nsg_rules c :=
    mem_nsg_rules.2 ⟨(true, anf_nsg_rules), by simp [nsgBlocks], rfl, by simp [anf_nsg_rules]⟩
  refine ⟨_, hx, rfl, rfl, rfl, ⟨_, rfl, .one 445, by decide, rfl⟩, ?_, ?_⟩
  · exact side_subnet (mem_subnets_compute c).1 hp ha
  · exact side_subnet (mem_subnets_compute c).2 hq hb

/-- The deny row of a direction matches every flow of the vnet. -/
theorem deny_row (covers : String → Addr → Bool) (c : AzhopConfig) (prefixes : SubnetKey → List String)
    (dir : Direction) {f : Flow Addr} (hs : .VirtualNetwork ∈ f.src.tags) (hd : .VirtualNetwork ∈ f.dst.tags) :
    ∃ x ∈ nsg_rules c, RowMatches covers (get? (nsg_destination_ports c)) (resolve c prefixes) dir x.2 f := by
  have hemit : ∀ x ∈ _nsg_rules, x ∈ nsg_rules c := fun x hx =>
    mem_nsg_rules.2 ⟨(true, _nsg_rules), by simp [nsgBlocks], rfl, hx⟩
  have hrow : ∃ x ∈ _nsg_rules, x.2 = denyVnet dir := by
    cases dir with
    | Inbound => exact ⟨("DenyVnetInbound", denyVnet .Inbound), by simp [_nsg_rules, denyVnet], rfl⟩
    | Outbound => exact ⟨("DenyVnetOutbound", denyVnet .Outbound), by simp [_nsg_rules, denyVnet], rfl⟩
  obtain ⟨x, hx, hxd⟩ := hrow
  exact ⟨x, hemit x hx, hxd ▸ denyVnet_matches rfl (fun _ => rfl) hs hd⟩

/-- With the common group the flow is intended outbound and denied inbound. -/
theorem asymmetric {rules : List SecurityRule} (hr : securityRules c prefixes = some rules) (hnsg : create_nsg c = true)
    (hc : Inhabited covers prefixes .compute) (hn : Inhabited covers prefixes .netapp) :
    ¬ Symmetric covers rules (Placed covers c prefixes) := by
  intro hs
  obtain ⟨p, hp, a, ha⟩ := hc
  obtain ⟨q, hq, b, hb⟩ := hn
  rw [securityRules, if_pos hnsg, ruleTable] at hr
  have hl := nsg_rules_allowFirst c
  obtain ⟨x, hx, hacc, hm⟩ := smb_out_row (c := c) hp ha hq hb
  have hint : Intended covers .Outbound rules (smbFlow a b) :=
    intended_of_row hr hl (keepsTags c prefixes) hx hacc hm (fun y hy hya hym => (smb_rows hy hya hym).2)
  have hsrc : Tag.VirtualNetwork ∈ (smbFlow a b).src.tags := List.mem_singleton_self _
  have hdst : Tag.VirtualNetwork ∈ (smbFlow a b).dst.tags := List.mem_singleton_self _
  obtain ⟨z, hz, hzm⟩ := deny_row covers c prefixes .Inbound hsrc hdst
  have hdeny : verdict covers .Inbound rules (smbFlow a b) = .Deny := by
    apply deny_of_rows hr hl hz hzm
    intro y hy hya hym
    have hout := (smb_rows hy hya hym).1
    rw [hym.direction] at hout
    cases hout
  have hplaced : ∀ k ∈ [SubnetKey.compute, .netapp], k ∈ nsgAssociations c := by
    intro k hk
    have hk' : k ∈ [SubnetKey.frontend, .compute, .admin, .database, .netapp] := by
      simp only [List.mem_cons, List.not_mem_nil, or_false] at hk
      rcases hk with rfl | rfl <;> decide
    rw [nsgAssociations, if_pos hnsg]
    exact List.mem_append_left _ (List.mem_append_left _ (List.mem_append_left _ hk'))
  have hallow := hs (smbFlow a b) ⟨hsrc, .compute, hplaced _ (by decide), p, hp, ha⟩
    ⟨hdst, .netapp, hplaced _ (by decide), q, hq, hb⟩ .Outbound hint
  rw [show Direction.Outbound.other = .Inbound from rfl, hdeny] at hallow
  cases hallow

/-- Without the common group no interface is under it. -/
theorem symmetric_without_nsg {rules : List SecurityRule} (hnsg : create_nsg c = false) :
    Symmetric covers rules (Placed covers c prefixes) := by
  intro f hsrc
  obtain ⟨-, k, hk, -⟩ := hsrc
  simp [nsgAssociations, hnsg] at hk

end
end Terraform

/-! ## Both backends -/

/-- Exactly when the flows between machines are symmetric: in Bicep when no
pair of addresses falls in the gap of the `ad_anf` block, in Terraform when
there is no common group, since the outbound rule `AllowSMBComputeOut` has no
partner. -/
theorem flow_symmetry_iff {Addr : Type} (covers : String → Addr → Bool) (c : AzhopConfig) :
    (∀ d rules, Bicep.azhop c = some d → Bicep.securityRules d = some rules → Bicep.SubnetsDisjoint covers d →
      (Symmetric covers rules (Bicep.Placed covers d) ↔ ¬ Bicep.DcGap covers d)) ∧
    (∀ prefixes rules, Terraform.securityRules c prefixes = some rules → Terraform.Inhabited covers prefixes .compute →
      Terraform.Inhabited covers prefixes .netapp →
      (Symmetric covers rules (Terraform.Placed covers c prefixes) ↔ Terraform.create_nsg c = false)) := by
  constructor
  · intro d rules h hr hdis
    exact ⟨fun hs hg => Bicep.asymmetric_of_gap h hr hdis hg hs, Bicep.symmetric_of_no_gap h hr hdis⟩
  · intro prefixes rules hr hc hn
    constructor
    · intro hs
      cases hnsg : Terraform.create_nsg c with
      | false => rfl
      | true => exact absurd hs (Terraform.asymmetric hr hnsg hc hn)
    · exact Terraform.symmetric_without_nsg

/-! ### A deployment with ANF and its own domain controller -/

def anfConfig : AzhopConfig :=
  { smallConfig with
    authentication := none
    ad := some { vm_size := "Standard_D2as_v5" }
    anf := some { create := true } }

def anfDeployment : Bicep.Deployment := (Bicep.azhop anfConfig).get rfl

theorem azhop_anf : Bicep.azhop anfConfig = some anfDeployment := rfl

theorem anf_rules : ∃ rules, Bicep.securityRules anfDeployment = some rules :=
  Bicep.securityRules_of_refs_ok (Bicep.refs_ok_of_agree azhop_anf ⟨by decide, by decide, by decide, by decide⟩)

theorem anf_disjoint : Bicep.SubnetsDisjoint Lib.Ipv4.covers anfDeployment := by
  have hap : ∀ x ∈ anfDeployment.subnets, ∀ y ∈ anfDeployment.subnets,
      x.1 = y.1 ∨ Lib.Ipv4.apart x.2.cidr y.2.cidr = true := by decide
  intro k k' a hk hk'
  unfold Bicep.inSubnet at hk hk'
  split at hk
  · rename_i s hs
    split at hk'
    · rename_i s' hs'
      rcases hap _ (mem_of_get? hs) _ (mem_of_get? hs') with h | h
      · exact h
      · rw [Lib.Ipv4.disjoint_of_apart h hk] at hk'
        cases hk'
    · cases hk'
  · cases hk

/-- From 10.0.0.36 in the NetApp subnet to a controller at 10.0.0.12. -/
theorem anf_gap : Bicep.DcGap Lib.Ipv4.covers anfDeployment :=
  ⟨rfl, rfl, 167772196, 167772172, .ad, by decide, ⟨_, rfl, rfl, by decide⟩, fun h => by cases h⟩

/-- The prefixes Azure reports for the subnets of the small file. -/
def smallPrefixes : SubnetKey → List String
  | .frontend => ["10.0.0.0/29"]
  | .admin => ["10.0.0.16/28"]
  | .netapp => ["10.0.0.32/28"]
  | .ad => ["10.0.0.8/29"]
  | .compute => ["10.0.1.0/24"]
  | _ => []

set_option maxRecDepth 10000 in
theorem anf_ruleTable : ∃ rules, Terraform.ruleTable anfConfig smallPrefixes = some rules :=
  Terraform.ruleTable_of_blocks (by decide)

theorem small_compute : Terraform.Inhabited Lib.Ipv4.covers smallPrefixes .compute :=
  ⟨"10.0.1.0/24", by decide, 167772420, by decide⟩

theorem small_netapp : Terraform.Inhabited Lib.Ipv4.covers smallPrefixes .netapp :=
  ⟨"10.0.0.32/28", by decide, 167772196, by decide⟩

theorem flow_symmetry_anf :
    (∃ rules, Bicep.securityRules anfDeployment = some rules ∧
      ¬ Symmetric Lib.Ipv4.covers rules (Bicep.Placed Lib.Ipv4.covers anfDeployment)) ∧
    (∃ rules, Terraform.securityRules anfConfig smallPrefixes = some rules ∧
      ¬ Symmetric Lib.Ipv4.covers rules (Terraform.Placed Lib.Ipv4.covers anfConfig smallPrefixes)) := by
  obtain ⟨hbicep, htf⟩ := flow_symmetry_iff Lib.Ipv4.covers anfConfig
  constructor
  · obtain ⟨rules, hr⟩ := anf_rules
    exact ⟨rules, hr, fun hs => (hbicep _ _ azhop_anf hr anf_disjoint).1 hs anf_gap⟩
  · obtain ⟨rules, hr⟩ := anf_ruleTable
    refine ⟨rules, hr, fun hs => ?_⟩
    have hno := (htf _ _ hr small_compute small_netapp).1 hs
    cases hno

/-- Both backends lose a flow: Bicep between the NetApp subnet and the domain
controllers, Terraform from the compute to the NetApp subnet. -/
theorem anf_asymmetric :
    (∃ rules, Bicep.securityRules anfDeployment = some rules ∧
      ¬ Symmetric Lib.Ipv4.covers rules (Bicep.Placed Lib.Ipv4.covers anfDeployment)) ∧
    (∃ rules, Terraform.securityRules anfConfig smallPrefixes = some rules ∧
      ¬ Symmetric Lib.Ipv4.covers rules (Terraform.Placed Lib.Ipv4.covers anfConfig smallPrefixes)) := by
  obtain ⟨rules, hr⟩ := anf_rules
  obtain ⟨rules', hr'⟩ := anf_ruleTable
  exact ⟨⟨rules, hr, Bicep.asymmetric_of_gap azhop_anf hr anf_disjoint anf_gap⟩,
    rules', hr', Terraform.asymmetric hr' rfl small_compute small_netapp⟩

end AzHop
