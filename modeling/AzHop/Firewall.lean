import AzHop.Bicep
import AzHop.Lib.Json
/-!
# The firewall of a locked down network

`azhop.bicep` hands the addresses of `locked_down_network.grant_access_from` to
`keyvault.bicep` and `storage.bicep`, which turn them into the rules of the Key
Vault and of the storage account. What the templates emit are JSON values,
since the question is how deep the arrays are nested: `azhop.bicep` puts the
list into another one, and `storage.bicep` puts each list of rules into an
array. `never_locked_down` is the outcome.
-/
namespace AzHop.Bicep
open Lib.Json

/-- `config.lock_down_network`. -/
structure LockDownNetwork where
  enforce : Bool
  grant_access_from : List Value

def text (s : String) : Value := .string s.toList

/-- `config.lock_down_network`. -/
def lock_down_network (c : AzhopConfig) : LockDownNetwork where
  enforce := (c.locked_down_network.bind (·.enforce)).getD false
  grant_access_from :=
    match c.locked_down_network.bind (·.grant_access_from) with
    | some ips => if ips.isEmpty then [] else [.array (ips.map text)]
    | none => []

/-- `{ value: ip }`. -/
def ipRule (ip : Value) : Value := .object [("value".toList, ip)]

/-- `{ id: subnetId }`. -/
def virtualNetworkRule (subnetId : Value) : Value := .object [("id".toList, subnetId)]

/-- `networkAcls` of a resource. -/
structure NetworkAcls where
  bypass : Option String := none
  defaultAction : String
  ipRules : Value
  virtualNetworkRules : Value

/-- `networkAcls` of `keyvault.bicep`. -/
def keyvaultAcls (lockDownNetwork : Bool) (allowableIps : List Value) (subnetId : Value) : NetworkAcls where
  bypass := "AzureServices"
  defaultAction := if lockDownNetwork then "Deny" else "Allow"
  ipRules := .array (allowableIps.map ipRule)
  virtualNetworkRules := .array [virtualNetworkRule subnetId]

/-- `networkAcls` of `storage.bicep`, which only a locked down account has. -/
def storageAcls (lockDownNetwork : Bool) (allowableIps subnetIds : List Value) : Option NetworkAcls :=
  if lockDownNetwork then
    some {
      defaultAction := "Deny"
      ipRules := .array [.array (allowableIps.map ipRule)]
      virtualNetworkRules := .array [.array (subnetIds.map virtualNetworkRule)] }
  else none

/-- The module `azhopKeyvault`. -/
def azhopKeyvault (c : AzhopConfig) (subnetIds : SubnetKey → String) : NetworkAcls :=
  keyvaultAcls (lock_down_network c).enforce (lock_down_network c).grant_access_from (text (subnetIds .admin))

/-- The module `azhopStorage`. -/
def azhopStorage (c : AzhopConfig) (subnetIds : SubnetKey → String) : Option NetworkAcls :=
  storageAcls (lock_down_network c).enforce (lock_down_network c).grant_access_from
    [text (subnetIds .admin), text (subnetIds .compute)]

/-! ## What is to be allowed -/

/-- The addresses of the configuration. -/
def granted (c : AzhopConfig) : List String := (c.locked_down_network.bind (·.grant_access_from)).getD []

/-- An array of exactly these rules, in any order. -/
def IsRules (v : Value) (rules : List Value) : Prop := ∃ l, v = .array l ∧ l.Perm rules

/-- The rules the configuration asks for. -/
def ipRules (c : AzhopConfig) : List Value := (granted c).map fun ip => ipRule (text ip)

/-- Both resources get these rules. -/
structure LockedDown (c : AzhopConfig) (subnetIds : SubnetKey → String) : Prop where
  keyvault : IsRules (azhopKeyvault c subnetIds).ipRules (ipRules c)
  storage : ∃ acls, azhopStorage c subnetIds = some acls ∧ IsRules acls.ipRules (ipRules c) ∧
    IsRules acls.virtualNetworkRules ([.admin, .compute].map fun k => virtualNetworkRule (text (subnetIds k)))

/-! ## What is allowed -/

variable {c : AzhopConfig} {subnetIds : SubnetKey → String}

theorem grant_access_from_eq (c : AzhopConfig) : (lock_down_network c).grant_access_from =
    if granted c = [] then [] else [.array ((granted c).map text)] := by
  unfold lock_down_network granted
  cases c.locked_down_network.bind (·.grant_access_from) with
  | none => rfl
  | some ips => cases ips <;> rfl

theorem ipRule_inj {v w : Value} (h : ipRule v = ipRule w) : v = w := by
  simpa [ipRule] using h

/-- The list of addresses is one address, unless there are none. -/
theorem keyvault_ipRules_iff : IsRules (azhopKeyvault c subnetIds).ipRules (ipRules c) ↔ granted c = [] := by
  unfold azhopKeyvault keyvaultAcls
  rw [grant_access_from_eq]
  constructor
  · rintro ⟨l, hl, hperm⟩
    by_contra hne
    rw [if_neg hne, List.map_singleton, Value.array.injEq] at hl
    subst hl
    have hmem := hperm.mem_iff.1 List.mem_cons_self
    obtain ⟨ip, -, hip⟩ := List.mem_map.1 hmem
    -- the value of a rule would be both a string and an array
    exact Value.noConfusion (ipRule_inj hip)
  · intro hnil
    rw [if_pos hnil]
    exact ⟨[], rfl, by rw [ipRules, hnil]; exact List.Perm.refl _⟩

/-- An array of one array is no array of objects. -/
theorem not_isRules_nested {l rules : List Value} (h : ∀ r ∈ rules, ∃ ms, r = .object ms) :
    ¬ IsRules (.array [.array l]) rules := by
  rintro ⟨l', hl', hperm⟩
  cases hl'
  have hmem := hperm.mem_iff.1 List.mem_cons_self
  obtain ⟨ms, hms⟩ := h _ hmem
  cases hms

theorem ipRules_objects : ∀ r ∈ ipRules c, ∃ ms, r = .object ms := by
  intro r hr
  obtain ⟨ip, -, rfl⟩ := List.mem_map.1 hr
  exact ⟨_, rfl⟩

theorem virtualNetworkRules_objects (keys : List SubnetKey) :
    ∀ r ∈ keys.map (fun k => virtualNetworkRule (text (subnetIds k))), ∃ ms, r = .object ms := by
  intro r hr
  obtain ⟨k, -, rfl⟩ := List.mem_map.1 hr
  exact ⟨_, rfl⟩

/-- Neither list of the storage account is right, whatever the addresses. -/
theorem storage_nested {acls : NetworkAcls} (h : azhopStorage c subnetIds = some acls) :
    ¬ IsRules acls.ipRules (ipRules c) ∧
    ¬ IsRules acls.virtualNetworkRules ([.admin, .compute].map fun k => virtualNetworkRule (text (subnetIds k))) := by
  unfold azhopStorage storageAcls at h
  split at h
  · cases h
    exact ⟨not_isRules_nested ipRules_objects, not_isRules_nested (virtualNetworkRules_objects _)⟩
  · cases h

/-- With `enforce: true` no list of addresses gets the rules it asks for: the
Key Vault is right for the empty list only, the storage account never. -/
theorem never_locked_down (c : AzhopConfig) (subnetIds : SubnetKey → String)
    (henforce : (lock_down_network c).enforce = true) :
    ¬ LockedDown c subnetIds ∧
    (IsRules (azhopKeyvault c subnetIds).ipRules (ipRules c) ↔ granted c = []) ∧
    ∃ acls, azhopStorage c subnetIds = some acls ∧ ¬ IsRules acls.ipRules (ipRules c) ∧
      ¬ IsRules acls.virtualNetworkRules ([.admin, .compute].map fun k => virtualNetworkRule (text (subnetIds k))) := by
  refine ⟨fun h => ?_, keyvault_ipRules_iff, ?_⟩
  · obtain ⟨acls, hacls, hips, -⟩ := h.storage
    exact (storage_nested hacls).1 hips
  · obtain ⟨acls, hacls⟩ : ∃ acls, azhopStorage c subnetIds = some acls := by
      unfold azhopStorage storageAcls
      rw [if_pos henforce]
      exact ⟨_, rfl⟩
    exact ⟨acls, hacls, storage_nested hacls⟩

def lockedConfig (ips : List String) : AzhopConfig :=
  { smallConfig with
    locked_down_network := some { enforce := true, public_ip := false, grant_access_from := ips } }

theorem never_locked_down_one_address : ¬ LockedDown (lockedConfig ["10.1.2.3"]) fun _ => "subnet" :=
  (never_locked_down (lockedConfig ["10.1.2.3"]) (fun _ => "subnet") rfl).1

/-- One address: the Key Vault gets a rule whose value is a list, and the
storage account an array of arrays. -/
theorem one_address_nested :
    (azhopKeyvault (lockedConfig ["10.1.2.3"]) fun _ => "subnet").ipRules =
      .array [ipRule (.array [text "10.1.2.3"])] ∧
    (azhopStorage (lockedConfig ["10.1.2.3"]) fun _ => "subnet").map (·.virtualNetworkRules) =
      some (.array [.array [virtualNetworkRule (text "subnet"), virtualNetworkRule (text "subnet")]]) ∧
    ¬ LockedDown (lockedConfig ["10.1.2.3"]) fun _ => "subnet" := by
  refine ⟨rfl, rfl, fun h => ?_⟩
  have hnil := keyvault_ipRules_iff.1 h.keyvault
  cases hnil

end AzHop.Bicep
