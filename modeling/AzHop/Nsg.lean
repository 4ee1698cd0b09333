import AzHop.Config
import AzHop.Lib.FirstMatch
import AzHop.Lib.Objects
/-!
# Network security groups

Both backends keep their rules as rows
`[priority, direction, access, protocol, ports, source, destination]` that
name security groups, subnets, service tags and port lists, and resolve the
names into the security rules of one group, `nsg-common`. Here are the rows,
the resolved rules, and what a group does with a flow: the matching rule of
least priority decides, and Azure's default rules come after all others.

Trusted: how Azure reads one rule. Whether an address lies in a prefix is the
parameter `covers`; which service tags and security groups an end of a flow
has is part of the flow.
-/
namespace AzHop

/-- The direction column of a row. -/
inductive Direction
  | Inbound
  | Outbound
  deriving DecidableEq

/-- The access column of a row. -/
inductive Access
  | Allow
  | Deny
  deriving DecidableEq

/-- The protocol column of a row; `Any` is written `*`. -/
inductive RuleProtocol
  | Tcp
  | Udp
  | Any
  deriving DecidableEq

/-- The service tags the rows name. -/
inductive Tag
  | VirtualNetwork
  | Internet
  | AzureCloud
  | AzureLoadBalancer
  deriving DecidableEq

/-- The names of the port lists, in either backend. -/
inductive PortKey
  | All
  | Bastion
  | Web
  | Ssh
  | HubSsh
  | Public_Ssh
  | DomainControlerTcp
  | DomainControlerUdp
  | NoVnc
  | Dns
  | Rdp
  | Shed
  | Sched
  | Lustre
  | Nfs
  | SMB
  | Telegraf
  | Grafana
  | CycleCloud
  | MySQL
  | WinRM
  deriving DecidableEq

/-- An entry of a port list: `'22'` or `'5900-5910'`. -/
inductive PortRange
  | one (port : Int)
  | span (lo hi : Nat)
  deriving DecidableEq

/-- The source or destination of a row. `dc` is the domain controller, a
variable in both backends: the security group `asg-ad`, or the addresses of
the existing controllers. -/
inductive Side
  | asg (name : Asg)
  | subnet (key : SubnetKey)
  | tag (name : Tag)
  | dc
  deriving DecidableEq

/-- A row of either backend, with its columns. -/
structure Row where
  priority : Nat
  direction : Direction
  access : Access
  protocol : RuleProtocol
  ports : PortKey
  source : Side
  destination : Side
  deriving DecidableEq

/-- An object of rows, by rule name. -/
abbrev Rows := List (String × Row)

/-! ## Resolved rules -/

/-- What a side resolves to. Address prefixes and single addresses are kept as
the text the configuration has. -/
inductive Target
  | asg (name : Asg)
  | tag (name : Tag)
  | prefixes (ps : List String)
  | any
  deriving DecidableEq

/-! ## Names used by a row -/

/-- The security groups a side names. -/
def sideAsgs (dc : Target) : Side → List Asg
  | .asg a => [a]
  | .dc => match dc with
    | .asg a => [a]
    | _ => []
  | _ => []

/-- The subnet a side names. -/
def sideSubnets : Side → List SubnetKey
  | .subnet k => [k]
  | _ => []

/-- The security groups a row names, given what the domain controller is. -/
def rowAsgs (dc : Target) (r : Row) : List Asg := sideAsgs dc r.source ++ sideAsgs dc r.destination

/-- The subnets a row names. -/
def rowSubnets (r : Row) : List SubnetKey := sideSubnets r.source ++ sideSubnets r.destination

/-! ## Security rules -/

/-- A row with its names resolved, as Azure gets it. -/
structure SecurityRule where
  name : String
  priority : Nat
  direction : Direction
  access : Access
  protocol : RuleProtocol
  destinationPortRanges : List PortRange
  source : Target
  destination : Target
  deriving DecidableEq

/-! ## Flows -/

/-- The protocol of a flow. -/
inductive Protocol
  | tcp
  | udp
  | icmp
  deriving DecidableEq

/-- One end of a flow: its address, the security groups its network interface
is a member of, and the service tags of the address. -/
structure Endpoint (Addr : Type) where
  addr : Addr
  asgs : List Asg
  tags : List Tag

/-- A connection between two ends. -/
structure Flow (Addr : Type) where
  src : Endpoint Addr
  dst : Endpoint Addr
  protocol : Protocol
  port : Fin 65536

/-- The port is in the range. -/
def PortRange.contains : PortRange → Fin 65536 → Bool
  | .one p, x => p = x.val
  | .span lo hi, x => lo ≤ x.val ∧ x.val ≤ hi

/-- A rule of this protocol applies to a flow of that one. -/
def RuleProtocol.covers : RuleProtocol → Protocol → Bool
  | .Tcp, p => p = .tcp
  | .Udp, p => p = .udp
  | .Any, _ => true

@[simp] theorem contains_one {p : Int} {x : Fin 65536} : (PortRange.one p).contains x = true ↔ (x.val : Int) = p := by
  simp only [PortRange.contains, decide_eq_true_eq]
  exact eq_comm

@[simp] theorem contains_span {lo hi : Nat} {x : Fin 65536} :
    (PortRange.span lo hi).contains x = true ↔ lo ≤ x.val ∧ x.val ≤ hi := by
  simp [PortRange.contains]

@[simp] theorem tcp_covers {p : Protocol} : RuleProtocol.Tcp.covers p = true ↔ p = .tcp := by
  simp [RuleProtocol.covers]

section
variable {Addr : Type} (covers : String → Addr → Bool)

/-- The end of a flow is one of those a side stands for. -/
def Target.matches : Target → Endpoint Addr → Bool
  | .asg a, e => a ∈ e.asgs
  | .tag t, e => t ∈ e.tags
  | .prefixes ps, e => ps.any (fun p => covers p e.addr)
  | .any, _ => true

variable {covers} in
@[simp] theorem matches_asg {a : Asg} {e : Endpoint Addr} : (Target.asg a).matches covers e = true ↔ a ∈ e.asgs := by
  simp [Target.matches]

variable {covers} in
@[simp] theorem matches_tag {t : Tag} {e : Endpoint Addr} : (Target.tag t).matches covers e = true ↔ t ∈ e.tags := by
  simp [Target.matches]

/-- The rule matches a flow evaluated in direction `d`. -/
def SecurityRule.matches (d : Direction) (r : SecurityRule) (f : Flow Addr) : Bool :=
  r.direction = d && r.protocol.covers f.protocol && r.destinationPortRanges.any (·.contains f.port) &&
    r.source.matches covers f.src && r.destination.matches covers f.dst

variable {covers} in
theorem matches_iff {d : Direction} {r : SecurityRule} {f : Flow Addr} :
    r.matches covers d f = true ↔
      r.direction = d ∧ r.protocol.covers f.protocol = true ∧ (∃ p ∈ r.destinationPortRanges, p.contains f.port = true) ∧
        r.source.matches covers f.src = true ∧ r.destination.matches covers f.dst = true := by
  simp only [SecurityRule.matches, Bool.and_eq_true, decide_eq_true_eq, List.any_eq_true, and_assoc]

/-- The rule that decides a flow. -/
def decider (d : Direction) (rules : List SecurityRule) (f : Flow Addr) : Option SecurityRule :=
  Lib.FirstMatch.decider SecurityRule.priority (SecurityRule.matches covers d) rules f

/-- The rules Azure adds to every group. -/
def defaultRules : List SecurityRule :=
  [⟨"AllowVnetInBound", 65000, .Inbound, .Allow, .Any, [.span 0 65535], .tag .VirtualNetwork, .tag .VirtualNetwork⟩,
   ⟨"AllowAzureLoadBalancerInBound", 65001, .Inbound, .Allow, .Any, [.span 0 65535], .tag .AzureLoadBalancer, .any⟩,
   ⟨"DenyAllInBound", 65500, .Inbound, .Deny, .Any, [.span 0 65535], .any, .any⟩,
   ⟨"AllowVnetOutBound", 65000, .Outbound, .Allow, .Any, [.span 0 65535], .tag .VirtualNetwork, .tag .VirtualNetwork⟩,
   ⟨"AllowInternetOutBound", 65001, .Outbound, .Allow, .Any, [.span 0 65535], .any, .tag .Internet⟩,
   ⟨"DenyAllOutBound", 65500, .Outbound, .Deny, .Any, [.span 0 65535], .any, .any⟩]

/-- What the group does with a flow. A flow no rule matches cannot occur: the
last default rules match everything. -/
def verdict (d : Direction) (rules : List SecurityRule) (f : Flow Addr) : Access :=
  match decider covers d (rules ++ defaultRules) f with
  | some r => r.access
  | none => .Deny

end

/-! ## Templates -/

/-- Every allow row comes before the deny rows, which share one priority. -/
def AllowFirst (rows : Rows) : Prop :=
  ∀ x ∈ rows, x.2.priority < 65000 ∧ (x.2.access = .Allow ∧ x.2.priority < 3100 ∨ x.2.access = .Deny ∧ x.2.priority = 3100)

/-- A name as a number, by its bytes. -/
def nameCode (s : String) : Nat := s.toByteArray.data.toList.foldl (fun n b => n * 256 + b.toNat) 0

/-- Names are told apart by their numbers, which are quicker to compare. -/
theorem nodup_of_nameCode {names : List String} (h : (names.map nameCode).Nodup) : names.Nodup := h.of_map nameCode

/-- A rule table as both backends write it: blocks of rows, each under a
condition on the variables, which do not change the rows. -/
structure Template (V : Type) where
  blocks : V → List (Bool × Rows)
  rows : Rows
  rows_eq : ∀ v, ((blocks v).map Prod.snd).flatten = rows
  names_nodup : (Lib.Objects.keys rows).Nodup
  allow_first : AllowFirst rows

namespace Template
variable {V : Type} (t : Template V) {v : V} {x : String × Row}

/-- The emitted rows. -/
def rules (v : V) : Rows := Lib.Objects.unionAll (Lib.Objects.gated (t.blocks v))

/-- The emitted rows are those of the blocks whose condition holds. -/
theorem mem_rules : x ∈ t.rules v ↔ ∃ b ∈ t.blocks v, b.1 = true ∧ x ∈ b.2 :=
  Lib.Objects.mem_unionAll_gated (t.rows_eq v ▸ t.names_nodup)

theorem mem_rows (h : x ∈ t.rules v) : x ∈ t.rows := by
  obtain ⟨b, hb, -, hx⟩ := t.mem_rules.1 h
  rw [← t.rows_eq v]
  exact List.mem_flatten.2 ⟨b.2, List.mem_map_of_mem hb, hx⟩

theorem rules_allowFirst (v : V) : AllowFirst (t.rules v) := fun x hx => t.allow_first x (t.mem_rows hx)

end Template

/-! ## Rows -/

section
variable {Addr : Type} (covers : String → Addr → Bool) (ports : PortKey → Option (List PortRange))
  (resolve : Side → Option Target)

/-- A row with its port list and its sides looked up. -/
def securityRule (rule : String × Row) : Option SecurityRule := do
  let destinationPortRanges ← ports rule.2.ports
  let source ← resolve rule.2.source
  let destination ← resolve rule.2.destination
  return { name := rule.1, priority := rule.2.priority, direction := rule.2.direction, access := rule.2.access,
           protocol := rule.2.protocol, destinationPortRanges, source, destination }

/-- The same of a side before it is resolved: one that does not resolve has no ends. -/
def sideMatches (s : Side) (e : Endpoint Addr) : Bool :=
  match resolve s with
  | some t => t.matches covers e
  | none => false

/-- The resolved row matches a flow. -/
structure RowMatches (d : Direction) (x : Row) (f : Flow Addr) : Prop where
  direction : x.direction = d
  protocol : x.protocol.covers f.protocol = true
  port : ∃ ps, ports x.ports = some ps ∧ ∃ p ∈ ps, p.contains f.port = true
  source : sideMatches covers resolve x.source f.src = true
  destination : sideMatches covers resolve x.destination f.dst = true

variable {covers ports resolve} {rows : Rows} {rules : List SecurityRule} {d : Direction} {f : Flow Addr}

theorem securityRule_eq {x : String × Row} {r : SecurityRule} (h : securityRule ports resolve x = some r) :
    ports x.2.ports = some r.destinationPortRanges ∧ resolve x.2.source = some r.source ∧
      resolve x.2.destination = some r.destination ∧ r.priority = x.2.priority ∧ r.direction = x.2.direction ∧
      r.access = x.2.access ∧ r.protocol = x.2.protocol := by
  simp only [securityRule, Option.bind_eq_bind, Option.bind_eq_some_iff, Option.pure_def, Option.some.injEq] at h
  obtain ⟨ps, hps, s, hs, t, ht, rfl⟩ := h
  exact ⟨hps, hs, ht, rfl, rfl, rfl, rfl⟩

theorem matches_row_iff {x : String × Row} {r : SecurityRule} (h : securityRule ports resolve x = some r) :
    r.matches covers d f = true ↔ RowMatches covers ports resolve d x.2 f := by
  obtain ⟨hp, hs, hd, -, hdir, -, hproto⟩ := securityRule_eq h
  rw [matches_iff, hdir, hproto]
  constructor
  · rintro ⟨h1, h2, h3, h4, h5⟩
    exact ⟨h1, h2, ⟨_, hp, h3⟩, by simpa [sideMatches, hs] using h4, by simpa [sideMatches, hd] using h5⟩
  · rintro ⟨h1, h2, ⟨ps, hps, h3⟩, h4, h5⟩
    obtain rfl := Option.some.inj (hp.symm.trans hps)
    exact ⟨h1, h2, h3, by simpa [sideMatches, hs] using h4, by simpa [sideMatches, hd] using h5⟩

theorem rowMatches_iff {x : Row} :
    RowMatches covers ports resolve d x f ↔
      x.direction = d ∧ x.protocol.covers f.protocol = true ∧
        (∃ ps, ports x.ports = some ps ∧ ∃ p ∈ ps, p.contains f.port = true) ∧
        sideMatches covers resolve x.source f.src = true ∧ sideMatches covers resolve x.destination f.dst = true :=
  ⟨fun h => ⟨h.1, h.2, h.3, h.4, h.5⟩, fun ⟨h1, h2, h3, h4, h5⟩ => ⟨h1, h2, h3, h4, h5⟩⟩

/-- The last row of a direction in both backends. -/
def denyVnet (dir : Direction) : Row := ⟨3100, dir, .Deny, .Any, .All, .tag .VirtualNetwork, .tag .VirtualNetwork⟩

/-- It matches every flow of the vnet. -/
theorem denyVnet_matches (hports : ports .All = some [.span 0 65535]) (htag : ∀ t, resolve (.tag t) = some (.tag t))
    (hs : .VirtualNetwork ∈ f.src.tags) (hd : .VirtualNetwork ∈ f.dst.tags) :
    RowMatches covers ports resolve d (denyVnet d) f := by
  have hport : (PortRange.span 0 65535).contains f.port = true := by
    rw [contains_span]
    omega
  refine ⟨rfl, rfl, ⟨_, hports, _, List.mem_singleton_self _, hport⟩, ?_, ?_⟩
  · simpa [denyVnet, sideMatches, htag] using hs
  · simpa [denyVnet, sideMatches, htag] using hd

/-! ## Deciding -/

/-- A flow that is allowed is allowed by a rule that matches it. -/
theorem rule_of_allow (h : verdict covers d rules f = .Allow) :
    ∃ r ∈ rules ++ defaultRules, r.matches covers d f = true ∧ r.access = .Allow := by
  unfold verdict at h
  split at h
  · rename_i r hd
    obtain ⟨hm, hh⟩ := Lib.FirstMatch.decider_mem hd
    exact ⟨r, hm, hh, h⟩
  · cases h

theorem defaultRules_priority : ∀ r ∈ defaultRules, 65000 ≤ r.priority := by decide

section
variable (hr : rows.mapM (securityRule ports resolve) = some rules)
include hr

theorem row_of_rule {r : SecurityRule} (h : r ∈ rules) : ∃ x ∈ rows, securityRule ports resolve x = some r :=
  (Lib.Objects.mem_mapM_iff hr r).1 h

theorem rule_of_row {x : String × Row} (hx : x ∈ rows) : ∃ r ∈ rules, securityRule ports resolve x = some r := by
  obtain ⟨r, hxr⟩ := Lib.Objects.exists_of_mapM hr x hx
  exact ⟨r, (Lib.Objects.mem_mapM_iff hr r).2 ⟨x, hx, hxr⟩, hxr⟩

variable (hl : AllowFirst rows)
include hl

theorem before_defaults : ∀ a ∈ rules, ∀ b ∈ defaultRules, a.priority < b.priority := by
  intro a ha b hb
  obtain ⟨x, hx, hxa⟩ := row_of_rule hr ha
  have hlt := (hl x hx).1
  rw [← (securityRule_eq hxa).2.2.2.1] at hlt
  exact hlt.trans_le (defaultRules_priority b hb)

/-- A flow some row matches is decided by a row, of no greater priority. -/
theorem decided_by_row {x : String × Row} (hx : x ∈ rows) (hm : RowMatches covers ports resolve d x.2 f) :
    ∃ y ∈ rows, ∃ r ∈ rules, securityRule ports resolve y = some r ∧
      decider covers d (rules ++ defaultRules) f = some r ∧ RowMatches covers ports resolve d y.2 f ∧
      y.2.priority ≤ x.2.priority := by
  obtain ⟨s, hs, hxs⟩ := rule_of_row hr hx
  have hsm := (matches_row_iff hxs).2 hm
  obtain ⟨r, hd, hle⟩ := Lib.FirstMatch.exists_decider (List.mem_append_left defaultRules hs) hsm
  have hmem := Lib.FirstMatch.decider_append_mem (before_defaults hr hl) hd ⟨s, hs, hsm⟩
  obtain ⟨y, hy, hyr⟩ := row_of_rule hr hmem
  refine ⟨y, hy, r, hmem, hyr, hd, (matches_row_iff hyr).1 (Lib.FirstMatch.decider_mem hd).2, ?_⟩
  rwa [(securityRule_eq hyr).2.2.2.1, (securityRule_eq hxs).2.2.2.1] at hle

theorem layered_of_allowFirst : Lib.FirstMatch.Layered SecurityRule.priority (fun r => r.access = .Allow) rules := by
  intro a ha haa b hb hbd
  obtain ⟨x, hx, hxa⟩ := row_of_rule hr ha
  obtain ⟨y, hy, hyb⟩ := row_of_rule hr hb
  have hxa' := securityRule_eq hxa
  have hyb' := securityRule_eq hyb
  rcases (hl x hx).2 with ⟨-, hp⟩ | ⟨hd, -⟩
  · rcases (hl y hy).2 with ⟨ha', -⟩ | ⟨-, hp'⟩
    · simp [hyb'.2.2.2.2.2.1, ha'] at hbd
    · rw [hxa'.2.2.2.1, hyb'.2.2.2.1, hp']
      exact hp
  · simp [hxa'.2.2.2.2.2.1, hd] at haa

/-- One matching allow row allows the flow. -/
theorem allow_of_row {x : String × Row} (hx : x ∈ rows) (ha : x.2.access = .Allow)
    (hm : RowMatches covers ports resolve d x.2 f) : verdict covers d rules f = .Allow := by
  obtain ⟨r, hmem, hxr⟩ := rule_of_row hr hx
  have hh := (matches_row_iff hxr).2 hm
  obtain ⟨s, hd, -⟩ := Lib.FirstMatch.exists_decider (List.mem_append_left defaultRules hmem) hh
  have hallow := Lib.FirstMatch.allow_of_layered (layered_of_allowFirst hr hl) (before_defaults hr hl) hmem
    (by simp [(securityRule_eq hxr).2.2.2.2.2.1, ha]) hh hd
  unfold verdict decider
  rw [hd]
  exact of_decide_eq_true hallow

/-- Where no allow row matches, one matching row denies the flow. -/
theorem deny_of_rows {x : String × Row} (hx : x ∈ rows) (hm : RowMatches covers ports resolve d x.2 f)
    (hno : ∀ y ∈ rows, y.2.access = .Allow → ¬ RowMatches covers ports resolve d y.2 f) :
    verdict covers d rules f = .Deny := by
  obtain ⟨y, hy, r, -, hyr, hd, hym, -⟩ := decided_by_row hr hl hx hm
  unfold verdict
  rw [hd]
  show r.access = .Deny
  rw [(securityRule_eq hyr).2.2.2.2.2.1]
  rcases (hl y hy).2 with ⟨ha, -⟩ | ⟨hden, -⟩
  · exact absurd hym (hno y hy ha)
  · exact hden

end
end
end AzHop
