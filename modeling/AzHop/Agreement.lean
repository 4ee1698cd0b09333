import AzHop.Symmetry
/-!
# The policies of the two backends

For a configuration both backends support, the group Terraform builds and the
group Bicep builds are meant to be the same policy. They are not, for any
such configuration: UDP from the compute to the NetApp subnet on port 445 has
a row of its own in `variables_local.tf` and none in `azhop.bicep`.
-/
namespace AzHop
open Lib.Objects

/-- The configurations both backends support. -/
structure BothSupport (c : AzhopConfig) : Prop where
  created_vnet : Terraform.create_vnet c = true
  no_lustre : Bicep.deployLustre c = false
  no_deployer : c.deployer = none

/-- The two groups decide every packet alike, in both directions. -/
def Agree {Addr : Type} (covers : String → Addr → Bool) (rules rules' : List SecurityRule) : Prop :=
  ∀ (d : Direction) (f : Flow Addr), verdict covers d rules f = verdict covers d rules' f

namespace Bicep

set_option maxRecDepth 10000 in
theorem open_out_rows : ∀ x ∈ templateRows, x.2.direction = .Outbound → x.2.access = .Allow → x.2.protocol ≠ .Tcp →
    x.2.ports = .All → x.2.destination = .tag .AzureCloud ∨ x.2.destination = .subnet .lustre := by decide

variable {Addr : Type} {covers : String → Addr → Bool} {c : AzhopConfig} {d : Deployment}

theorem not_lustre (h : azhop c = some d) (hno : deployLustre c = false) (a : Addr) :
    inSubnet covers d .lustre a = false := by
  have hv : d.vars.deployLustre = false := (vars_of h).deployLustre ▸ hno
  have hkey : .lustre ∉ keys d.subnets := by
    rw [mem_subnets h, hv]
    exact Bool.false_ne_true
  unfold inSubnet
  split
  · rename_i s hs
    exact absurd (mem_keys_of_mem (mem_of_get? hs)) hkey
  · rfl

/-- Without Lustre, Bicep denies the flow outbound. -/
theorem smb_denied {rules : List SecurityRule} (h : azhop c = some d) (hr : securityRules d = some rules)
    (hno : deployLustre c = false) (a b : Addr) : verdict covers .Outbound rules (Terraform.smbFlow a b) = .Deny := by
  have hl : AllowFirst d.nsgRules := (azhop_parts h).nsgRules ▸ nsgRules_allowFirst d.vars
  obtain ⟨x, hx, hm⟩ := deny_row covers h (f := Terraform.smbFlow a b) (List.mem_singleton_self _)
    (List.mem_singleton_self _)
  have hports := (azhop_parts h).service_ports
  apply deny_of_rows hr hl hx hm
  intro y hy hya hym
  obtain ⟨hproto, hkeys⟩ := udp_ports h hy ⟨rfl, .inr rfl⟩ hym
  rcases hkeys with hk | hk
  · have hrow := mem_templateRows ((azhop_parts h).nsgRules ▸ hy)
    have hdst := hym.destination
    rcases open_out_rows y hrow hym.direction hya hproto hk with hd | hd
    · rw [hd, side_tag] at hdst
      simp [Terraform.smbFlow] at hdst
    · rw [hd, side_subnet, not_lustre h hno] at hdst
      cases hdst
  · obtain ⟨ps, hps, p, hp, hc⟩ := hym.port
    rw [hports, hk] at hps
    obtain rfl := Option.some.inj hps
    have hclosed : ∀ p ∈ [PortRange.one 53, .one 88, .one 123, .one 138, .one 389, .one 464, .one 636],
        p.contains 445 = false := by decide
    rw [show (Terraform.smbFlow a b).port = 445 from rfl, hclosed p hp] at hc
    cases hc

end Bicep

section
variable {Addr : Type} {covers : String → Addr → Bool} {c : AzhopConfig} {d : Bicep.Deployment}
  {prefixes : SubnetKey → List String} {rules rules' : List SecurityRule}

/-- Terraform allows the flow outbound. -/
theorem smb_allowed (hr : Terraform.ruleTable c prefixes = some rules) {p q : String} {a b : Addr}
    (hp : p ∈ prefixes .compute) (ha : covers p a = true) (hq : q ∈ prefixes .netapp) (hb : covers q b = true) :
    verdict covers .Outbound rules (Terraform.smbFlow a b) = .Allow := by
  obtain ⟨x, hx, hacc, hm⟩ := Terraform.smb_out_row (c := c) hp ha hq hb
  exact allow_of_row hr (Terraform.nsg_rules_allowFirst c) hx hacc hm

/-- On no supported configuration do the two backends build the same policy. -/
theorem policies_never_agree (hs : BothSupport c) (h : Bicep.azhop c = some d)
    (hr : Bicep.securityRules d = some rules) (hr' : Terraform.ruleTable c prefixes = some rules')
    (hc : Terraform.Inhabited covers prefixes .compute) (hn : Terraform.Inhabited covers prefixes .netapp) :
    ¬ Agree covers rules' rules := by
  intro hag
  obtain ⟨p, hp, a, ha⟩ := hc
  obtain ⟨q, hq, b, hb⟩ := hn
  have heq := hag .Outbound (Terraform.smbFlow a b)
  rw [smb_allowed hr' hp ha hq hb, Bicep.smb_denied h hr hs.no_lustre] at heq
  cases heq

end

theorem anf_supported : BothSupport anfConfig := ⟨rfl, rfl, rfl⟩

theorem policies_never_agree_anf : ∃ rules rules', Bicep.securityRules anfDeployment = some rules ∧
    Terraform.ruleTable anfConfig smallPrefixes = some rules' ∧ ¬ Agree Lib.Ipv4.covers rules' rules := by
  obtain ⟨rules, hr⟩ := anf_rules
  obtain ⟨rules', hr'⟩ := anf_ruleTable
  exact ⟨rules, rules', hr, hr',
    policies_never_agree anf_supported azhop_anf hr hr' small_compute small_netapp⟩

/-- UDP 445 from 10.0.1.4 to 10.0.0.36. -/
theorem anf_policies_differ : ∃ rules rules', Bicep.securityRules anfDeployment = some rules ∧
    Terraform.ruleTable anfConfig smallPrefixes = some rules' ∧
    verdict Lib.Ipv4.covers .Outbound rules' (Terraform.smbFlow 167772420 167772196) = .Allow ∧
    verdict Lib.Ipv4.covers .Outbound rules (Terraform.smbFlow 167772420 167772196) = .Deny := by
  obtain ⟨rules, hr⟩ := anf_rules
  obtain ⟨rules', hr'⟩ := anf_ruleTable
  exact ⟨rules, rules', hr, hr', smb_allowed hr' (p := "10.0.1.0/24") (by decide) (by decide)
    (q := "10.0.0.32/28") (by decide) (by decide), Bicep.smb_denied azhop_anf hr rfl _ _⟩

end AzHop
