import AzHop.Variables
import Mathlib.Data.String.Basic
/-!
# The DNS records of the domain controllers

Each backend publishes an A record for every domain controller and SRV records
that point to them. The names and the addresses of existing controllers are two
lists of the configuration. `privatezone_records.bicep` finds the address of a
name at the position of the name. `private_dns.tf` writes one record, and a
second one in high availability, and reads the names back from a map, in the
order of its keys. `dns_records_iff` says when both publish what the
configuration says.
-/
namespace AzHop

/-- The name and the addresses of an A record. -/
abbrev ARecord := String × List String

/-- An SRV record: priority 0 and weight 100 for each target. -/
structure Srv where
  name : String
  port : Nat
  targets : List String

structure Zone where
  name : String
  a : List ARecord
  srv : List Srv

/-- The full name of a host. -/
def fqdn (host domain : String) : String := host ++ "." ++ domain ++ "."

namespace Bicep

def srvRecords (adVms : List String) (first : String) : List Srv :=
  [⟨"_gc._tcp", 3268, adVms⟩,
   ⟨"_kerberos._tcp", 88, adVms⟩,
   ⟨"_kerberos._tcp.dc._msdcs", 88, adVms⟩,
   ⟨"_kerberos._udp", 88, adVms⟩,
   ⟨"_kerberos.default-first-site-name._sites.dc._msdcs", 88, adVms⟩,
   ⟨"_kpasswd._tcp", 464, adVms⟩,
   ⟨"_kpasswd._udp", 464, adVms⟩,
   ⟨"_ldap._tcp", 389, adVms⟩,
   ⟨"_ldap._tcp.dc._msdcs", 389, adVms⟩,
   ⟨"_ldap._tcp.gc._msdcs", 3268, adVms⟩,
   ⟨"_ldap._tcp.pdc._msdcs", 389, [first]⟩,
   ⟨"_ldap.default-first-site-name._sites.dc._msdcs", 389, adVms⟩,
   ⟨"_ldap.default-first-site-name._sites.gc._msdcs", 3268, adVms⟩]

/-- `privatezone_records.bicep`. -/
def privatezone_records (privateDnsZoneName : String) (adVmNames adVmIps : List String) : Option Zone := do
  let a ← adVmNames.mapM fun vmName => (adVmIps[adVmNames.idxOf vmName]?).map fun ip => (vmName, [ip])
  let first ← adVmNames[0]?
  return { name := privateDnsZoneName, a,
           srv := srvRecords (adVmNames.map fun vmName => fqdn vmName privateDnsZoneName) (fqdn first privateDnsZoneName) }

/-- `azhopADRecords`, with the addresses of the controllers of the deployment. -/
def zone (c : AzhopConfig) (adIp ad2Ip : String) : Option Zone := do
  let v ← vars c
  let domain ← domainEntry c v
  let dcIps := if v.createAD then (if v.highAvailabilityForAD then [adIp, ad2Ip] else [adIp])
    else v.domain_controller_ip_addresses
  if v.createAD || v.useExistingAD then privatezone_records domain.name domain.domain_controlers dcIps
  else return { name := domain.name, a := [], srv := [] }

end Bicep

namespace Terraform

/-- A binding of a map, which is kept in the order of its keys. -/
def assign (k v : String) : List (String × String) → List (String × String)
  | [] => [(k, v)]
  | (k', v') :: m => if k < k' then (k, v) :: (k', v') :: m else if k = k' then (k, v) :: m else (k', v') :: assign k v m

def zipmap (keys values : List String) : Option (List (String × String)) :=
  if keys.length = values.length then some ((keys.zip values).foldl (fun m b => assign b.1 b.2 m) []) else none

def values (m : List (String × String)) : List String := m.map Prod.snd

def ad2_name (c : AzhopConfig) : String := (c.ad.bind (·.ha_name)).getD "ad2"

def private_dns_zone_name (c : AzhopConfig) : String := (c.private_dns.map (·.name)).getD "hpc.azure"

def existing_dc_details (c : AzhopConfig) : Option ExistingDcDetails := c.domain.bind (·.existing_dc_details)

def domain_controlers (c : AzhopConfig) : Option (List (String × String)) :=
  if use_existing_ad c then do
    let names ← (existing_dc_details c).bind (·.domain_controller_names)
    zipmap names names
  else if ad_ha c then some [("ad", ad_name c), ("ad2", ad2_name c)]
  else some [("ad", ad_name c)]

/-- `domain_controller_ips`, with the addresses of the controllers of the deployment. -/
def controller_ips (c : AzhopConfig) (adIp ad2Ip : String) : Option (List String) :=
  if use_existing_ad c then domain_controller_ips c
  else if create_ad c then some (if ad_ha c then [adIp, ad2Ip] else [adIp])
  else some []

/-- `azurerm_private_dns_a_record.ad`. -/
def a_record_ad (c : AzhopConfig) (controlers ips : List String) : Option (List ARecord) :=
  if create_dns_records c then do
    let name ← controlers[0]?
    let ip ← ips[0]?
    return [(name, [ip])]
  else some []

/-- `azurerm_private_dns_a_record.ad2`. -/
def a_record_ad2 (c : AzhopConfig) (controlers ips : List String) : Option (List ARecord) :=
  let name := (controlers[1]?).getD (ad2_name c)
  if ad_ha c then
    if create_dns_records c then (ips[1]?.or ips[0]?).map fun ip => [(name, [ip])] else some [(name, [])]
  else some []

def srv_records (targets : List String) (first : String) : List Srv :=
  [⟨"_ldap._tcp", 389, targets⟩,
   ⟨"_kpasswd._tcp", 464, targets⟩,
   ⟨"_kerberos._tcp", 88, targets⟩,
   ⟨"_gc._tcp", 3268, targets⟩,
   ⟨"_kerberos._udp", 88, targets⟩,
   ⟨"_kpasswd._udp", 464, targets⟩,
   ⟨"_ldap._tcp.dc._msdcs", 389, targets⟩,
   ⟨"_kerberos._tcp.dc._msdcs", 88, targets⟩,
   ⟨"_ldap._tcp.gc._msdcs", 3268, targets⟩,
   ⟨"_ldap._tcp.pdc._msdcs", 389, [first]⟩,
   ⟨"_ldap.default-first-site-name._sites.dc._msdcs", 389, targets⟩,
   ⟨"_kerberos.default-first-site-name._sites.dc._msdcs", 88, targets⟩,
   ⟨"_ldap.default-first-site-name._sites.gc._msdcs", 3268, targets⟩]

/-- `private_dns.tf`. The records name the zone by its index, so there are none without it. -/
def zone (c : AzhopConfig) (adIp ad2Ip : String) : Option Zone :=
  if create_private_dns c then do
    let domain_name ← domain_name c
    let domain_controlers ← domain_controlers c
    let ips ← controller_ips c adIp ad2Ip
    let controlers := values domain_controlers
    let ad ← a_record_ad c controlers ips
    let ad2 ← a_record_ad2 c controlers ips
    let first ← controlers[0]?
    return { name := private_dns_zone_name c, a := ad ++ ad2,
             srv := if create_dns_records c then
                 srv_records (controlers.map fun host => fqdn host domain_name) (fqdn first domain_name)
               else [] }
  else none

end Terraform

/-! ## What is to be published -/

/-- The zone has exactly the A records of the lists, its SRV records point to
names that have one, and the record of the primary controller to the first name. -/
structure Zone.Publishes (z : Zone) (names ips : List String) : Prop where
  a : z.a.Perm ((names.zip ips).map fun x => (x.1, [x.2]))
  srv : ∀ r ∈ z.srv, ∀ t ∈ r.targets, ∃ x ∈ z.a, t = fqdn x.1 z.name
  pdc : (z.srv.find? fun r => r.name = "_ldap._tcp.pdc._msdcs").map (·.targets) =
    (names[0]?).map fun first => [fqdn first z.name]

def PublishedBy (z? : Option Zone) (names ips : List String) : Prop := ∃ z, z? = some z ∧ z.Publishes names ips

/-- A configuration with existing domain controllers. -/
structure ExistingDcs (c : AzhopConfig) (names ips : List String) : Prop where
  details : ∃ d e, c.domain = some d ∧ d.use_existing_dc = some true ∧ d.existing_dc_details = some e ∧
    e.domain_controller_names = some names ∧ e.domain_controller_ip_addresses = some ips
  length_eq : names.length = ips.length
  ne_nil : names ≠ []
  names_nodup : names.Nodup
  ips_nodup : ips.Nodup

/-- The properties of `domain` Bicep reads besides the lists. -/
def JoinGiven (c : AzhopConfig) : Prop :=
  ∃ d, c.domain = some d ∧ d.name.isSome = true ∧ ∃ u, d.domain_join_user = some u ∧ u.username.isSome = true ∧
    u.password_key_vault_name.isSome = true ∧ u.password_key_vault_resource_group_name.isSome = true ∧
    u.password_key_vault_secret_name.isSome = true

/-- The lists and the zone `private_dns.tf` is written for: one controller, or
in high availability two in the order of their names, in the zone of the domain. -/
structure TerraformShape (c : AzhopConfig) (names : List String) : Prop where
  create : Terraform.create_private_dns c = true
  zone_name : c.domain.bind (·.name) = some (Terraform.private_dns_zone_name c)
  single : Terraform.ad_ha c = false → ∃ n, names = [n]
  pair : Terraform.ad_ha c = true → ∃ a b, names = [a, b] ∧ a < b

section
variable {c : AzhopConfig} {names ips : List String} {adIp ad2Ip : String}

/-! ## SRV records -/

/-- SRV records that point to all the names, or to the first one, are right
beside an A record for each name. -/
theorem Zone.publishes_zip {first zone : String} {rest : List String} {srv : List Srv}
    (hlen : (first :: rest).length = ips.length)
    (htargets : ∀ r ∈ srv, r.targets = (first :: rest).map (fqdn · zone) ∨ r.targets = [fqdn first zone])
    (hpdc : (srv.find? fun r => r.name = "_ldap._tcp.pdc._msdcs").map (·.targets) = some [fqdn first zone]) :
    Zone.Publishes ⟨zone, ((first :: rest).zip ips).map fun x => (x.1, [x.2]), srv⟩ (first :: rest) ips := by
  refine ⟨List.Perm.refl _, fun r hr t ht => ?_, hpdc⟩
  -- every target is the full name of a listed controller, and each of those has its record
  obtain ⟨n, hn, rfl⟩ : ∃ n ∈ first :: rest, t = fqdn n zone := by
    rcases htargets r hr with h | h
    · rw [h] at ht
      obtain ⟨n, hn, rfl⟩ := List.mem_map.1 ht
      exact ⟨n, hn, rfl⟩
    · rw [h, List.mem_singleton] at ht
      exact ⟨first, List.mem_cons_self, ht⟩
  have hzip : ((first :: rest).zip ips).map (·.1) = first :: rest := List.map_fst_zip (by omega)
  rw [← hzip] at hn
  obtain ⟨x, hx, rfl⟩ := List.mem_map.1 hn
  exact ⟨(x.1, [x.2]), List.mem_map.2 ⟨x, hx, rfl⟩, rfl⟩

/-! ## Bicep -/

namespace Bicep

/-- The address at the position of a name is the one listed beside it. -/
theorem aRecords_eq (hlen : names.length = ips.length) (hnodup : names.Nodup) :
    (names.mapM fun vmName => (ips[names.idxOf vmName]?).map fun ip => (vmName, [ip])) =
      some ((names.zip ips).map fun x => (x.1, [x.2])) := by
  have hget : ∀ vmName ∈ names, ((ips[names.idxOf vmName]?).map fun ip => (vmName, [ip])) =
      some (vmName, [(ips[names.idxOf vmName]?).getD ""]) := by
    intro vmName hm
    have hlt : names.idxOf vmName < ips.length := hlen ▸ List.idxOf_lt_length_of_mem hm
    rw [List.getElem?_eq_getElem hlt]
    rfl
  rw [Lib.Objects.mapM_eq_map hget]
  congr 1
  refine List.ext_getElem (by simp [hlen]) fun i hi hi' => ?_
  have hin : i < names.length := by simpa using hi
  have hii : i < ips.length := by omega
  rw [List.getElem_map, List.getElem_map, List.getElem_zip, List.Nodup.idxOf_getElem hnodup i hin,
    List.getElem?_eq_getElem hii]
  rfl

theorem srvRecords_targets (adVms : List String) (first : String) :
    ∀ r ∈ srvRecords adVms first, r.targets = adVms ∨ r.targets = [first] := by
  simp [srvRecords]

theorem privatezone_publishes (hlen : names.length = ips.length) (hne : names ≠ []) (hnodup : names.Nodup)
    (privateDnsZoneName : String) : PublishedBy (privatezone_records privateDnsZoneName names ips) names ips := by
  obtain ⟨first, rest, rfl⟩ := List.exists_cons_of_ne_nil hne
  refine ⟨_, by rw [privatezone_records, aRecords_eq hlen hnodup]; rfl, ?_⟩
  exact Zone.publishes_zip hlen (srvRecords_targets _ _) rfl

theorem vars_existing (h : ExistingDcs c names ips) : ∃ v, vars c = some v ∧ v.useExistingAD = true ∧
    v.createAD = false ∧ v.domain_controller_ip_addresses = ips := by
  obtain ⟨d, e, hd, hx, he, -, hi⟩ := h.details
  simp [vars, useExistingAD, domain_controller_ip_addresses, Vars.createAD, hd, hx, he, hi]

theorem domainEntry_existing (h : ExistingDcs c names ips) {v : Vars} (hx : v.useExistingAD = true)
    (hc : v.createAD = false) (hj : JoinGiven c) : ∃ e, domainEntry c v = some e ∧ e.domain_controlers = names := by
  obtain ⟨d, details, hd, -, hdet, hn, -⟩ := h.details
  obtain ⟨d', hd', hname, u, hu, huser⟩ := hj
  cases hd.symm.trans hd'
  obtain ⟨name, hname⟩ := Option.isSome_iff_exists.1 hname
  obtain ⟨first, rest, rfl⟩ := List.exists_cons_of_ne_nil h.ne_nil
  exact ⟨⟨name, u, first :: rest, first⟩,
    (domainEntry_existing_iff hc hx).2 ⟨d, hd, hname, ⟨hu, huser⟩, details, hdet, hn, rfl⟩, rfl⟩

/-- Bicep publishes the lists whenever it can read the domain. -/
theorem zone_publishes_iff (h : ExistingDcs c names ips) :
    PublishedBy (zone c adIp ad2Ip) names ips ↔ JoinGiven c := by
  obtain ⟨v, hv, hx, hc, hips⟩ := vars_existing h
  constructor
  · rintro ⟨z, hz, -⟩
    simp only [zone, hv, Option.bind_eq_bind, Option.bind_some, Option.bind_eq_some_iff] at hz
    obtain ⟨e, he, -⟩ := hz
    obtain ⟨d, hd, hn, ⟨hu, huser⟩, -⟩ := (domainEntry_existing_iff hc hx).1 he
    exact ⟨d, hd, Option.isSome_iff_exists.2 ⟨_, hn⟩, _, hu, huser⟩
  · intro hj
    obtain ⟨e, he, hnames⟩ := domainEntry_existing h hx hc hj
    have hz : zone c adIp ad2Ip = privatezone_records e.name names ips := by
      simp [zone, hv, he, hx, hc, hips, hnames]
    rw [hz]
    exact privatezone_publishes h.length_eq h.ne_nil h.names_nodup e.name

end Bicep

/-! ## Terraform -/

namespace Terraform

theorem srv_records_targets (targets : List String) (first : String) :
    ∀ r ∈ srv_records targets first, r.targets = targets ∨ r.targets = [first] := by
  simp [srv_records]

theorem fqdn_right_inj {host d d' : String} : fqdn host d = fqdn host d' ↔ d = d' := by
  constructor
  · intro h
    have hl := congrArg String.toList h
    simp only [fqdn, String.toList_append, List.append_assoc, List.append_cancel_left_eq, List.append_cancel_right_eq] at hl
    exact String.toList_inj.1 hl
  · rintro rfl
    rfl

/-- The names as `values(local.domain_controlers)` has them. -/
def controlers (names : List String) : List String :=
  values ((names.zip names).foldl (fun m b => assign b.1 b.2 m) [])

/-- With existing controllers the zone is read from the lists. -/
theorem zone_existing_iff (h : ExistingDcs c names ips) {z : Zone} : zone c adIp ad2Ip = some z ↔
    create_private_dns c = true ∧ ∃ domain_name first ip, c.domain.bind (·.name) = some domain_name ∧
      (controlers names)[0]? = some first ∧ ips[0]? = some ip ∧
      z = { name := private_dns_zone_name c,
            a := (first, [ip]) ::
              if ad_ha c then [(((controlers names)[1]?).getD (ad2_name c), [(ips[1]?).getD ip])] else [],
            srv := srv_records ((controlers names).map fun host => fqdn host domain_name) (fqdn first domain_name) } := by
  obtain ⟨d, e, hd, hx, he, hn, hi⟩ := h.details
  have hex : use_existing_ad c = true := by simp [use_existing_ad, hd, hx]
  have hrec : create_dns_records c = true := by simp [create_dns_records, hex]
  have hm : domain_controlers c = some ((names.zip names).foldl (fun m b => assign b.1 b.2 m) []) := by
    simp [domain_controlers, hex, existing_dc_details, hd, he, hn, zipmap]
  have hips : controller_ips c adIp ad2Ip = some ips := by simp [controller_ips, hex, domain_controller_ips, hd, he, hi]
  have hname : domain_name c = c.domain.bind (·.name) := by simp [domain_name, ofDomain, hex]
  unfold zone a_record_ad a_record_ad2
  simp only [hrec, hm, hips, hname, if_true, Option.bind_eq_bind, Option.bind_some]
  change (if _ then (_ : Option String).bind _ else none) = some z ↔ _
  by_cases hp : create_private_dns c = true
  · rw [if_pos hp]
    cases c.domain.bind (·.name) with
    | none => simp
    | some dn =>
      cases hf : (controlers names)[0]? with
      | none =>
        unfold controlers at hf
        simp [hf]
      | some first =>
        unfold controlers at hf
        simp only [hf, Option.bind_some]
        cases hi0 : ips[0]? with
        | none => simp
        | some ip =>
          cases ips[1]? <;> cases ad_ha c <;> simp [controlers, hp] <;> exact eq_comm
  · simp [hp]

theorem controlers_single (n : String) : controlers [n] = [n] := rfl

/-- Two names come back in their order. -/
theorem controlers_pair {a b : String} (h : a < b) : controlers [a, b] = [a, b] ∧ controlers [b, a] = [a, b] := by
  have hne : a ≠ b := ne_of_lt h
  have hnot : ¬ b < a := lt_asymm h
  constructor
  · simp [controlers, values, assign, hnot, Ne.symm hne]
  · simp [controlers, values, assign, h]

theorem find_pdc (targets : List String) (first : String) :
    ((srv_records targets first).find? fun r => r.name = "_ldap._tcp.pdc._msdcs").map (·.targets) = some [first] := by
  simp [srv_records]

/-- The name of the primary controller is right in the zone of the domain only. -/
theorem zone_of_pdc {z : Zone} {targets : List String} {first domain : String}
    (hz : z.srv = srv_records targets (fqdn first domain))
    (h : (z.srv.find? fun r => r.name = "_ldap._tcp.pdc._msdcs").map (·.targets) = some [fqdn first z.name]) :
    domain = z.name := by
  rw [hz, find_pdc, Option.some.injEq, List.cons.injEq] at h
  exact fqdn_right_inj.1 h.1

/-- There is a record for each controller only in the shape, and the records
of two controllers have their own addresses only in the order of the names. -/
theorem shape_of_publishes (h : ExistingDcs c names ips) (hpub : PublishedBy (zone c adIp ad2Ip) names ips) :
    TerraformShape c names := by
  have hlen := h.length_eq
  obtain ⟨z, hz, ha, -, hpdc⟩ := hpub
  obtain ⟨hp, dn, first, ip, hdn, hfirst, hip, rfl⟩ := (zone_existing_iff h).1 hz
  have hcount := ha.length_eq
  simp only [List.length_map, List.length_zip, List.length_cons] at hcount
  cases hha : ad_ha c with
  | false =>
    obtain ⟨n, rfl⟩ : ∃ n, names = [n] := by
      rw [← List.length_eq_one_iff]
      simp [hha] at hcount
      omega
    cases hfirst
    have hzone := zone_of_pdc rfl hpdc
    exact ⟨hp, hdn.trans (congrArg some hzone), fun _ => ⟨n, rfl⟩, fun ht => (nomatch hha.symm.trans ht)⟩
  | true =>
    obtain ⟨a, b, rfl⟩ : ∃ a b, names = [a, b] := by
      rw [← List.length_eq_two]
      simp [hha] at hcount
      omega
    obtain ⟨p, q, rfl⟩ : ∃ p q, ips = [p, q] := List.length_eq_two.1 hlen.symm
    cases hip
    rcases lt_trichotomy a b with hab | rfl | hab
    · rw [(controlers_pair hab).1] at hfirst hpdc
      cases hfirst
      have hzone := zone_of_pdc rfl hpdc
      exact ⟨hp, hdn.trans (congrArg some hzone), fun hf => (nomatch hha.symm.trans hf),
        fun _ => ⟨_, b, rfl, hab⟩⟩
    · exact absurd h.names_nodup (by simp)
    · -- the second name would have the first address
      rw [(controlers_pair hab).2] at hfirst ha
      cases hfirst
      have hmem := ha.mem_iff.1 List.mem_cons_self
      have hips := h.ips_nodup
      simp only [List.nodup_cons, List.mem_singleton] at hips
      simp [ne_of_lt hab, hips.1] at hmem

theorem publishes_of_shape (h : ExistingDcs c names ips) (hs : TerraformShape c names) :
    PublishedBy (zone c adIp ad2Ip) names ips := by
  have hlen := h.length_eq
  have hz := fun z => (zone_existing_iff h : zone c adIp ad2Ip = some z ↔ _).2
  cases hha : ad_ha c with
  | false =>
    obtain ⟨n, rfl⟩ := hs.single hha
    obtain ⟨p, rfl⟩ : ∃ p, ips = [p] := List.length_eq_one_iff.1 hlen.symm
    refine ⟨_, hz _ ⟨hs.create, _, n, p, hs.zone_name, rfl, rfl, rfl⟩, ?_⟩
    simpa [hha, controlers_single] using Zone.publishes_zip hlen (srv_records_targets _ _) (find_pdc _ _)
  | true =>
    obtain ⟨a, b, rfl, hab⟩ := hs.pair hha
    obtain ⟨p, q, rfl⟩ : ∃ p q, ips = [p, q] := List.length_eq_two.1 hlen.symm
    refine ⟨_, hz _ ⟨hs.create, _, a, p, hs.zone_name, by rw [(controlers_pair hab).1]; rfl, rfl, rfl⟩, ?_⟩
    simpa [hha, (controlers_pair hab).1] using Zone.publishes_zip hlen (srv_records_targets _ _) (find_pdc _ _)

theorem publishes_iff (h : ExistingDcs c names ips) :
    PublishedBy (zone c adIp ad2Ip) names ips ↔ TerraformShape c names :=
  ⟨shape_of_publishes h, publishes_of_shape h⟩

end Terraform

/-! ## Both backends -/

/-- The lists are published by both backends when Bicep can read the domain and
the lists have the shape Terraform is written for. -/
theorem dns_records_iff (h : ExistingDcs c names ips) :
    PublishedBy (Bicep.zone c adIp ad2Ip) names ips ∧ PublishedBy (Terraform.zone c adIp ad2Ip) names ips ↔
      JoinGiven c ∧ TerraformShape c names := by
  rw [Bicep.zone_publishes_iff h, Terraform.publishes_iff h]

end

/-- A domain with existing controllers. -/
def joinedDomain (names ips : List String) : Domain where
  name := "hpc.azure"
  use_existing_dc := true
  domain_join_user := some {
    username := "joiner"
    password_key_vault_name := "vault"
    password_key_vault_resource_group_name := "group"
    password_key_vault_secret_name := "secret" }
  existing_dc_details := some { domain_controller_names := names, domain_controller_ip_addresses := ips }

def joinedConfig (names ips : List String) : AzhopConfig :=
  { smallConfig with domain := joinedDomain names ips, private_dns := some { create := true, name := "hpc.azure" } }

theorem join_given (names ips : List String) : JoinGiven (joinedConfig names ips) :=
  ⟨_, rfl, rfl, _, rfl, rfl, rfl, rfl, rfl⟩

theorem dns_records_one_controller :
    PublishedBy (Bicep.zone (joinedConfig ["dc1"] ["10.0.0.4"]) "" "") ["dc1"] ["10.0.0.4"] ∧
    PublishedBy (Terraform.zone (joinedConfig ["dc1"] ["10.0.0.4"]) "" "") ["dc1"] ["10.0.0.4"] := by
  have h : ExistingDcs (joinedConfig ["dc1"] ["10.0.0.4"]) ["dc1"] ["10.0.0.4"] :=
    ⟨⟨_, _, rfl, rfl, rfl, rfl, rfl⟩, rfl, by simp, by simp, by simp⟩
  refine (dns_records_iff h).2 ⟨join_given _ _, ⟨rfl, rfl, fun _ => ⟨_, rfl⟩, fun ht => ?_⟩⟩
  cases ht

/-- Two controllers: Terraform publishes the address of the first one only. -/
theorem dns_records_two_controllers :
    ExistingDcs (joinedConfig ["dc1", "dc2"] ["10.0.0.4", "10.0.0.5"]) ["dc1", "dc2"] ["10.0.0.4", "10.0.0.5"] ∧
    ¬ (PublishedBy (Bicep.zone (joinedConfig ["dc1", "dc2"] ["10.0.0.4", "10.0.0.5"]) "" "") ["dc1", "dc2"]
          ["10.0.0.4", "10.0.0.5"] ∧
        PublishedBy (Terraform.zone (joinedConfig ["dc1", "dc2"] ["10.0.0.4", "10.0.0.5"]) "" "") ["dc1", "dc2"]
          ["10.0.0.4", "10.0.0.5"]) := by
  have h : ExistingDcs (joinedConfig ["dc1", "dc2"] ["10.0.0.4", "10.0.0.5"]) ["dc1", "dc2"] ["10.0.0.4", "10.0.0.5"] :=
    ⟨⟨_, _, rfl, rfl, rfl, rfl, rfl⟩, rfl, by simp, by simp, by simp⟩
  refine ⟨h, fun hp => ?_⟩
  obtain ⟨n, hn⟩ := ((Terraform.publishes_iff h).1 hp.2).single rfl
  cases hn

end AzHop
