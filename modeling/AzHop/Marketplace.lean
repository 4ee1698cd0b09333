import AzHop.Lib.Ipv4
import AzHop.Lib.Json
/-!
# Network settings of the marketplace offers

`marketplace/solution/azhop` and `marketplace/solution/cc-slurm-workspace`. An
offer asks for a base address and a CIDR prefix (`ui_definition.json`) and puts
the prefixes of its subnets together as texts (`marketplace_config.yml`), with
`_X1_` to `_X4i_` for the octets of the base address, which `build.sh` replaces
by expressions. `int` is the portal's function, which reads digits.

A subnet plan is checked on intervals: the fixed subnets lie one after the other
in the first 128 addresses, the compute subnet after them inside the virtual
network (`planOk_dotted`).
-/
namespace AzHop.Marketplace
open Lib.Ipv4

/-- The two forms of the marketplace. -/
inductive Offer
  | azhop
  | cc_slurm_workspace
  deriving DecidableEq

/-- The `allowedValues` of `cidrPrefix`. -/
inductive CidrPrefix
  | p24
  | p23
  | p22
  | p21
  | p20
  deriving DecidableEq

namespace CidrPrefix

def length : CidrPrefix → Nat
  | p24 => 24
  | p23 => 23
  | p22 => 22
  | p21 => 21
  | p20 => 20

def text (p : CidrPrefix) : List Char := '/' :: Nat.toDigits 10 p.length

end CidrPrefix

/-! ## Octets -/

section
variable (int : List Char → Option Int) (baseIpAddress : List Char)

/-- `split(baseIpAddress, '.')[0]`. -/
def _X1_ : Option (List Char) := (baseIpAddress.splitOn '.').head?

def _X2_ : Option (List Char) := ((baseIpAddress.splitOn '.').drop 1).head?

def _X3_ : Option (List Char) := ((baseIpAddress.splitOn '.').drop 2).head?

def _X4_ : Option (List Char) := (baseIpAddress.splitOn '.').getLast?

/-- `int(_X1_)`. -/
def _X1i_ : Option Int := (_X1_ baseIpAddress).bind int

def _X2i_ : Option Int := (_X2_ baseIpAddress).bind int

def _X3i_ : Option Int := (_X3_ baseIpAddress).bind int

def _X4i_ : Option Int := (_X4_ baseIpAddress).bind int

end

/-! ## The subnets -/

section
variable (int : List Char → Option Int) (offer : Offer) (baseIpAddress : List Char) (cidrPrefix : CidrPrefix)

/-- `concat(baseIpAddress, cidrPrefix)`. -/
def address_space : List Char := baseIpAddress ++ cidrPrefix.text

/-- The subnets that only depend on the base address, with the end of their prefix. -/
def fixed : Offer → List (String × String)
  | .azhop => [("frontend", ".0/29"), ("database", ".8/29"), ("admin", ".16/28"), ("netapp", ".32/28"),
      ("gateway", ".48/28"), ("lustre", ".64/26")]
  | .cc_slurm_workspace => [("frontend", ".0/29"), ("database", ".8/29"), ("admin", ".16/28"), ("netapp", ".32/28"),
      ("lustre", ".48/28"), ("bastion", ".64/26")]

/-- `concat(_X1_, '.', _X2_, '.', third)`. -/
def concat (third : Option (List Char)) : Option (List Char) := do
  return (← _X1_ baseIpAddress) ++ '.' :: (← _X2_ baseIpAddress) ++ '.' :: (← third)

/-- `concat(string(add(_X3i_,n)), suffix)`. -/
def shifted (n : Int) (suffix : String) : Option (List Char) :=
  (_X3i_ int baseIpAddress).map fun x => (toString (x + n)).toList ++ suffix.toList

/-- The prefix of the compute subnet, by the size of the vnet. -/
def compute : Option (List Char) :=
  concat baseIpAddress <|
    if cidrPrefix = .p24 then (_X3_ baseIpAddress).map fun x => x ++ ".128/25".toList
    else if cidrPrefix = .p23 then shifted int baseIpAddress 1 ".0/24"
    else if cidrPrefix = .p22 then shifted int baseIpAddress 2 ".0/23"
    else if cidrPrefix = .p21 then shifted int baseIpAddress 4 ".0/22"
    else shifted int baseIpAddress 8 ".0/21"

/-- The names and `address_prefixes` of `network.vnet.subnets`. -/
def subnets : Option (List (String × List Char)) := do
  let fixed ← (fixed offer).mapM fun s =>
    (concat baseIpAddress ((_X3_ baseIpAddress).map fun x => x ++ s.2.toList)).map fun text => (s.1, text)
  let compute ← compute int baseIpAddress cidrPrefix
  return fixed ++ [("compute", compute)]

/-! ## The validations -/

/-- A part of an address is a number from 0 to 255. -/
def inRange : Option Int → Bool
  | some n => 0 ≤ n && n ≤ 255
  | none => false

/-- The third octet fits the selected CIDR prefix. -/
def thirdOctetValid : Bool :=
  match _X3i_ int baseIpAddress with
  | some n => cidrPrefix = .p24 || (cidrPrefix = .p23 && n % 2 = 0) || (cidrPrefix = .p22 && n % 4 = 0) ||
      (cidrPrefix = .p21 && n % 8 = 0) || (cidrPrefix = .p20 && n % 16 = 0)
  | none => false

/-- The texts left after one to `k` digits. -/
def afterDigits : Nat → List Char → List (List Char)
  | _, [] => []
  | 0, _ => []
  | k + 1, c :: cs => if c.isDigit then cs :: afterDigits k cs else []

/-- The texts left after a character that `.` matches. -/
def afterAny : List Char → List (List Char)
  | [] => []
  | c :: cs => if c ∈ ['\n', '\r', '\u2028', '\u2029'] then [] else [cs]

/-- `\d{1,3}.`, of which the point is not escaped. -/
def afterGroup (cs : List Char) : List (List Char) := (afterDigits 3 cs).flatMap afterAny

/-- `^(\d{1,3}.){3}\d{1,3}$`. -/
def regexMatches (cs : List Char) : Bool :=
  ((((afterGroup cs).flatMap afterGroup).flatMap afterGroup).flatMap (afterDigits 3)).any List.isEmpty

/-- All the validations of `baseIpAddress`. -/
def accepts : Bool :=
  regexMatches baseIpAddress && inRange (_X1i_ int baseIpAddress) && inRange (_X2i_ int baseIpAddress) &&
    inRange (_X3i_ int baseIpAddress) && thirdOctetValid int baseIpAddress cidrPrefix &&
    _X4i_ int baseIpAddress = some 0

end

/-- `int` reads digits. -/
def ReadsDigits (int : List Char → Option Int) : Prop :=
  ∀ cs, cs ≠ [] → (∀ c ∈ cs, c.isDigit = true) → int cs = some (Nat.ofDigitChars 10 cs 0 : Int)

/-- The subnets are texts of aligned prefixes with octets in range, inside the
network, and no two of them have an address in common. -/
structure PlanOk (vnet : Prefix) (subnets : List (String × List Char)) : Prop where
  each : ∀ s ∈ subnets, ∃ a b c d length, a ≤ 255 ∧ b ≤ 255 ∧ c ≤ 255 ∧ d ≤ 255 ∧ s.2 = cidr a b c d length ∧
    ∃ q, prefix? s.2 = some q ∧ q.Aligned ∧ ∀ address, q.covers address = true → vnet.covers address = true
  disjoint : subnets.Pairwise fun s t => ∀ q r, prefix? s.2 = some q → prefix? t.2 = some r →
    ∀ address, ¬(q.covers address = true ∧ r.covers address = true)

/-! ## The blocks of a plan -/

/-- A prefix below the first two octets. -/
structure Block where
  third : Nat
  last : Nat
  length : Nat

namespace Block

def start (k : Block) : Nat := 256 * k.third + k.last

def size (k : Block) : Nat := 2 ^ (32 - k.length)

def text (k : Block) (a b : Nat) : List Char := cidr a b k.third k.last k.length

/-- The block is an aligned prefix inside the addresses from `256 * c` on. -/
structure Fits (k : Block) (c size : Nat) : Prop where
  third : k.third ≤ 255
  last : k.last ≤ 255
  length : k.length ≤ 32
  aligned : k.start % k.size = 0
  size_dvd : 65536 % k.size = 0
  lower : 256 * c ≤ k.start
  upper : k.start + k.size ≤ 256 * c + size

end Block

/-- The blocks that do not depend on the size of the vnet. -/
def fixedBlocks (c : Nat) : Offer → List (String × Block)
  | .azhop => [("frontend", ⟨c, 0, 29⟩), ("database", ⟨c, 8, 29⟩), ("admin", ⟨c, 16, 28⟩), ("netapp", ⟨c, 32, 28⟩),
      ("gateway", ⟨c, 48, 28⟩), ("lustre", ⟨c, 64, 26⟩)]
  | .cc_slurm_workspace => [("frontend", ⟨c, 0, 29⟩), ("database", ⟨c, 8, 29⟩), ("admin", ⟨c, 16, 28⟩),
      ("netapp", ⟨c, 32, 28⟩), ("lustre", ⟨c, 48, 28⟩), ("bastion", ⟨c, 64, 26⟩)]

/-- The block of the compute subnet. -/
def computeBlock (c : Nat) : CidrPrefix → Block
  | .p24 => ⟨c, 128, 25⟩
  | .p23 => ⟨c + 1, 0, 24⟩
  | .p22 => ⟨c + 2, 0, 23⟩
  | .p21 => ⟨c + 4, 0, 22⟩
  | .p20 => ⟨c + 8, 0, 21⟩

/-- All blocks, by the names of the subnets. -/
def blocks (c : Nat) (offer : Offer) (cidrPrefix : CidrPrefix) : List (String × Block) :=
  fixedBlocks c offer ++ [("compute", computeBlock c cidrPrefix)]

theorem fixedBlocks_fit {c : Nat} (h : c ≤ 255) (offer : Offer) :
    ∀ s ∈ fixedBlocks c offer, s.2.Fits c 128 := by
  have hfits : ∀ last length, last + 2 ^ (32 - length) ≤ 128 → length ≤ 32 → last % 2 ^ (32 - length) = 0 →
      256 % 2 ^ (32 - length) = 0 → (⟨c, last, length⟩ : Block).Fits c 128 := by
    intro last length hupper hlength hlast hsize
    obtain ⟨m, hm⟩ := Nat.dvd_of_mod_eq_zero hsize
    have hpos : 0 < 2 ^ (32 - length) := Nat.two_pow_pos _
    have hle : last ≤ 255 := by omega
    refine ⟨h, hle, hlength, ?_, ?_, ?_, ?_⟩
    · have hmul : 256 * c = 2 ^ (32 - length) * (m * c) := by rw [← Nat.mul_assoc, ← hm]
      simp only [Block.start, Block.size, hmul, Nat.mul_add_mod, hlast]
    · have hmul : 65536 = 2 ^ (32 - length) * (m * 256) := by rw [← Nat.mul_assoc, ← hm]
      simp only [Block.size]
      rw [hmul, Nat.mul_mod_right]
    · exact Nat.le_add_right _ _
    · simp only [Block.start, Block.size]
      omega
  cases offer <;> simp only [fixedBlocks, List.forall_mem_cons] <;>
    exact ⟨hfits _ _ (by decide) (by decide) (by decide) (by decide), hfits _ _ (by decide) (by decide) (by decide) (by decide),
      hfits _ _ (by decide) (by decide) (by decide) (by decide), hfits _ _ (by decide) (by decide) (by decide) (by decide),
      hfits _ _ (by decide) (by decide) (by decide) (by decide), hfits _ _ (by decide) (by decide) (by decide) (by decide),
      List.forall_mem_nil _⟩

theorem fixedBlocks_sorted (c : Nat) (offer : Offer) :
    (fixedBlocks c offer).Pairwise fun s t => s.2.start + s.2.size ≤ t.2.start := by
  cases offer <;> simp [fixedBlocks, Block.start, Block.size]

theorem computeBlock_fits {c : Nat} (h : c ≤ 255) {p : CidrPrefix} (hc : c % 2 ^ (24 - p.length) = 0) :
    (computeBlock c p).Fits c (2 ^ (32 - p.length)) ∧ 256 * c + 128 ≤ (computeBlock c p).start := by
  cases p <;> simp only [CidrPrefix.length, Nat.reduceSub, Nat.reducePow] at hc <;>
    refine ⟨⟨?_, ?_, ?_, ?_, ?_, ?_, ?_⟩, ?_⟩ <;>
    simp only [computeBlock, Block.start, Block.size, CidrPrefix.length, Nat.reduceSub, Nat.reducePow] <;> omega

/-! ## A plan of blocks -/

/-- The prefix a block is the text of. -/
def Block.prefixOf (k : Block) (a b : Nat) : Prefix := ⟨65536 * (256 * a + b) + k.start, k.length⟩

theorem Block.Fits.prefix?_text {k : Block} {c size : Nat} (h : k.Fits c size) {a b : Nat} (ha : a ≤ 255)
    (hb : b ≤ 255) : prefix? (k.text a b) = some (k.prefixOf a b) := by
  have hnet : 256 * (256 * (256 * a + b) + k.third) + k.last = 65536 * (256 * a + b) + k.start := by
    simp only [Block.start]
    omega
  rw [Block.text, prefix?_cidr ha hb h.third h.last h.length, hnet]
  rfl

theorem Block.Fits.aligned_prefixOf {k : Block} {c size : Nat} (h : k.Fits c size) (a b : Nat) :
    (k.prefixOf a b).Aligned := by
  have hmul : 65536 * (256 * a + b) % k.size = 0 := by rw [Nat.mul_mod, h.size_dvd, Nat.zero_mul, Nat.zero_mod]
  have hsum : (65536 * (256 * a + b) + k.start) % k.size = 0 := by rw [Nat.add_mod, hmul, h.aligned, Nat.zero_mod]
  exact hsum

theorem Block.Fits.covers_iff {k : Block} {c size : Nat} (h : k.Fits c size) (a b : Nat) (address : Address) :
    (k.prefixOf a b).covers address = true ↔ 65536 * (256 * a + b) + k.start ≤ address.val ∧
      address.val < 65536 * (256 * a + b) + k.start + k.size :=
  Prefix.covers_iff (h.aligned_prefixOf a b) address

theorem blocks_fit {c : Nat} (h : c ≤ 255) (offer : Offer) {p : CidrPrefix} (hc : c % 2 ^ (24 - p.length) = 0) :
    ∀ s ∈ blocks c offer p, s.2.Fits c (2 ^ (32 - p.length)) := by
  have hsize : 256 ≤ 2 ^ (32 - p.length) := by cases p <;> decide
  intro s hs
  rcases List.mem_append.1 hs with hs | hs
  · have hfits := fixedBlocks_fit h offer s hs
    exact { hfits with upper := Nat.le_trans hfits.upper (by omega) }
  · rw [List.mem_singleton.1 hs]
    exact (computeBlock_fits h hc).1

theorem blocks_sorted {c : Nat} (h : c ≤ 255) (offer : Offer) {p : CidrPrefix} (hc : c % 2 ^ (24 - p.length) = 0) :
    (blocks c offer p).Pairwise fun s t => s.2.start + s.2.size ≤ t.2.start := by
  refine List.pairwise_append.2 ⟨fixedBlocks_sorted c offer, List.pairwise_singleton _ _, fun s hs t ht => ?_⟩
  rw [List.mem_singleton.1 ht]
  exact Nat.le_trans (fixedBlocks_fit h offer s hs).upper (computeBlock_fits h hc).2

/-- The block of the vnet. -/
def vnetBlock (c : Nat) (p : CidrPrefix) : Block := ⟨c, 0, p.length⟩

theorem vnetBlock_fits {c : Nat} (h : c ≤ 255) {p : CidrPrefix} (hc : c % 2 ^ (24 - p.length) = 0) :
    (vnetBlock c p).Fits c (2 ^ (32 - p.length)) := by
  cases p <;> simp only [CidrPrefix.length, Nat.reduceSub, Nat.reducePow] at hc <;>
    refine ⟨?_, ?_, ?_, ?_, ?_, ?_, ?_⟩ <;>
    simp only [vnetBlock, Block.start, Block.size, CidrPrefix.length, Nat.reduceSub, Nat.reducePow] <;> omega

theorem planOk_blocks {a b c : Nat} (ha : a ≤ 255) (hb : b ≤ 255) (h : c ≤ 255) (offer : Offer) {p : CidrPrefix}
    (hc : c % 2 ^ (24 - p.length) = 0) :
    PlanOk ((vnetBlock c p).prefixOf a b) ((blocks c offer p).map fun s => (s.1, s.2.text a b)) := by
  have hfit := blocks_fit h offer hc
  constructor
  · intro s hs
    obtain ⟨t, ht, rfl⟩ := List.mem_map.1 hs
    have hk := hfit t ht
    refine ⟨a, b, t.2.third, t.2.last, t.2.length, ha, hb, hk.third, hk.last, rfl, t.2.prefixOf a b,
      hk.prefix?_text ha hb, hk.aligned_prefixOf a b, fun address hcover => ?_⟩
    have hin := (hk.covers_iff a b address).1 hcover
    have hlower := hk.lower
    have hupper := hk.upper
    refine ((vnetBlock_fits h hc).covers_iff a b address).2 ?_
    simp only [vnetBlock, Block.start, Block.size] at hin hlower hupper ⊢
    omega
  · rw [List.pairwise_map]
    refine (blocks_sorted h offer hc).imp_of_mem ?_
    rintro s t hs ht hsorted q r hq hr address ⟨hqc, hrc⟩
    rw [(hfit s hs).prefix?_text ha hb] at hq
    rw [(hfit t ht).prefix?_text ha hb] at hr
    cases hq
    cases hr
    have hs' := ((hfit s hs).covers_iff a b address).1 hqc
    have ht' := ((hfit t ht).covers_iff a b address).1 hrc
    omega

/-! ## The plan of a base address -/

section
variable {int : List Char → Option Int} (hint : ReadsDigits int) (a b c : Nat)

theorem _X1_dotted : _X1_ (dotted a b c 0) = some (Nat.toDigits 10 a) := by
  rw [_X1_, splitOn_dotted]
  rfl

theorem _X2_dotted : _X2_ (dotted a b c 0) = some (Nat.toDigits 10 b) := by
  rw [_X2_, splitOn_dotted]
  rfl

theorem _X3_dotted : _X3_ (dotted a b c 0) = some (Nat.toDigits 10 c) := by
  rw [_X3_, splitOn_dotted]
  rfl

include hint in
theorem int_toDigits (n : Nat) : int (Nat.toDigits 10 n) = some (n : Int) := by
  rw [hint _ Nat.toDigits_ne_nil fun _ hd => Nat.isDigit_of_mem_toDigits (by decide) (by decide) hd,
    Nat.ofDigitChars_ten_toDigits]

include hint in
theorem _X3i_dotted : _X3i_ int (dotted a b c 0) = some (c : Int) := by
  rw [_X3i_, _X3_dotted, Option.bind_some, int_toDigits hint]

/-- The text after the third octet. -/
def suffix (last length : Nat) : List Char := '.' :: Nat.toDigits 10 last ++ '/' :: Nat.toDigits 10 length

theorem concat_dotted (k : Block) :
    concat (dotted a b c 0) (some (Nat.toDigits 10 k.third ++ suffix k.last k.length)) = some (k.text a b) := by
  rw [concat, _X1_dotted, _X2_dotted]
  simp [Block.text, suffix, cidr, dotted]

theorem toString_natCast (n : Nat) : (toString (n : Int)).toList = Nat.toDigits 10 n := by
  have hrepr : toString (n : Int) = n.repr := rfl
  rw [hrepr, Nat.toList_repr]

include hint in
theorem shifted_dotted (n : Nat) {text : String} {last length : Nat} (h : text.toList = suffix last length) :
    shifted int (dotted a b c 0) n text = some (Nat.toDigits 10 (c + n) ++ suffix last length) := by
  have hsum : (c : Int) + (n : Int) = ((c + n : Nat) : Int) := rfl
  rw [shifted, _X3i_dotted hint, Option.map_some, hsum, toString_natCast, h]

include hint in
theorem compute_dotted (p : CidrPrefix) : compute int (dotted a b c 0) p = some ((computeBlock c p).text a b) := by
  rw [← concat_dotted a b c (computeBlock c p)]
  unfold compute
  congr 1
  cases p with
  | p24 =>
    have hsuffix : ".128/25".toList = suffix 128 25 := by decide
    rw [if_pos rfl, _X3_dotted, hsuffix]
    rfl
  | p23 => exact shifted_dotted hint a b c 1 (by decide : ".0/24".toList = suffix 0 24)
  | p22 => exact shifted_dotted hint a b c 2 (by decide : ".0/23".toList = suffix 0 23)
  | p21 => exact shifted_dotted hint a b c 4 (by decide : ".0/22".toList = suffix 0 22)
  | p20 => exact shifted_dotted hint a b c 8 (by decide : ".0/21".toList = suffix 0 21)

theorem fixed_dotted (offer : Offer) :
    ((fixed offer).mapM fun s => (concat (dotted a b c 0) ((_X3_ (dotted a b c 0)).map fun x => x ++ s.2.toList)).map
      fun text => (s.1, text)) = some ((fixedBlocks c offer).map fun s => (s.1, s.2.text a b)) := by
  have hone : ∀ (name text : String) (last length : Nat), text.toList = suffix last length →
      (concat (dotted a b c 0) ((_X3_ (dotted a b c 0)).map fun x => x ++ text.toList)).map (fun text => (name, text)) =
        some (name, Block.text ⟨c, last, length⟩ a b) := by
    intro name text last length htext
    rw [_X3_dotted, Option.map_some, htext]
    have hconcat := concat_dotted a b c ⟨c, last, length⟩
    simp only at hconcat
    rw [hconcat]
    rfl
  have h0 : ".0/29".toList = suffix 0 29 := by decide
  have h8 : ".8/29".toList = suffix 8 29 := by decide
  have h16 : ".16/28".toList = suffix 16 28 := by decide
  have h32 : ".32/28".toList = suffix 32 28 := by decide
  have h48 : ".48/28".toList = suffix 48 28 := by decide
  have h64 : ".64/26".toList = suffix 64 26 := by decide
  cases offer <;>
    simp only [fixed, fixedBlocks, List.mapM_cons, List.mapM_nil, hone _ _ _ _ h0, hone _ _ _ _ h8, hone _ _ _ _ h16,
      hone _ _ _ _ h32, hone _ _ _ _ h48, hone _ _ _ _ h64] <;> rfl

include hint in
theorem subnets_dotted (offer : Offer) (p : CidrPrefix) : subnets int offer (dotted a b c 0) p =
    some ((blocks c offer p).map fun s => (s.1, s.2.text a b)) := by
  rw [subnets, fixed_dotted, compute_dotted hint]
  simp [blocks]

include hint in
theorem thirdOctetValid_dotted {p : CidrPrefix} (h : thirdOctetValid int (dotted a b c 0) p = true) :
    c % 2 ^ (24 - p.length) = 0 := by
  rw [thirdOctetValid, _X3i_dotted hint] at h
  cases p <;> simp [CidrPrefix.length] at h ⊢ <;> omega

theorem prefix?_address_space {a b c : Nat} (ha : a ≤ 255) (hb : b ≤ 255) (h : c ≤ 255) (p : CidrPrefix) :
    prefix? (address_space (dotted a b c 0) p) = some ((vnetBlock c p).prefixOf a b) := by
  have hlength : p.length ≤ 32 := by cases p <;> decide
  have htext : address_space (dotted a b c 0) p = cidr a b c 0 p.length := rfl
  have hnet : 256 * (256 * (256 * a + b) + c) + 0 = 65536 * (256 * a + b) + (vnetBlock c p).start := by
    simp only [vnetBlock, Block.start]
    omega
  rw [htext, prefix?_cidr ha hb h (by decide) hlength, hnet]
  rfl

end

/-- For a base address that the third octet's validation lets pass, the offer's
subnets are a plan of the network. -/
theorem subnets_planOk {int : List Char → Option Int} (hint : ReadsDigits int) (offer : Offer) (p : CidrPrefix)
    (a b c : Fin 256) (h : thirdOctetValid int (dotted a b c 0) p = true) : ∃ vnet list,
      prefix? (address_space (dotted a b c 0) p) = some vnet ∧ vnet.Aligned ∧
        subnets int offer (dotted a b c 0) p = some list ∧ PlanOk vnet list := by
  have ha : a.val ≤ 255 := by omega
  have hb : b.val ≤ 255 := by omega
  have hc : c.val ≤ 255 := by omega
  have hmod := thirdOctetValid_dotted hint a b c h
  exact ⟨_, _, prefix?_address_space ha hb hc p, (vnetBlock_fits hc hmod).aligned_prefixOf a b,
    subnets_dotted hint a b c offer p, planOk_blocks ha hb hc offer hmod⟩

/-! ## What the validations accept -/

theorem mem_afterDigits {k : Nat} {cs rest : List Char} : rest ∈ afterDigits k cs ↔
    ∃ ds, ds ≠ [] ∧ ds.length ≤ k ∧ (∀ d ∈ ds, d.isDigit = true) ∧ cs = ds ++ rest := by
  induction k generalizing cs with
  | zero =>
    constructor
    · intro h
      cases cs <;> cases h
    · rintro ⟨ds, hne, hlength, -⟩
      exact absurd (List.length_eq_zero_iff.1 (Nat.le_zero.1 hlength)) hne
  | succ k ih =>
    cases cs with
    | nil =>
      constructor
      · intro h
        cases h
      · rintro ⟨ds, hne, -, -, heq⟩
        exact absurd (List.append_eq_nil_iff.1 heq.symm).1 hne
    | cons c cs =>
      unfold afterDigits
      split
      · rename_i hc
        rw [List.mem_cons, ih]
        constructor
        · rintro (rfl | ⟨ds, -, hlength, hdigits, rfl⟩)
          · exact ⟨[c], by simp, by simp, by simpa using hc, rfl⟩
          · refine ⟨c :: ds, by simp, by simp; omega, ?_, rfl⟩
            simpa [hc] using hdigits
        · rintro ⟨ds, hne, hlength, hdigits, heq⟩
          obtain ⟨d, ds, rfl⟩ := List.exists_cons_of_ne_nil hne
          obtain ⟨rfl, rfl⟩ := List.cons.inj heq
          by_cases hnil : ds = []
          · exact .inl (by simp [hnil])
          · refine .inr ⟨ds, hnil, by simp at hlength; omega, fun e he => hdigits e (List.mem_cons_of_mem c he), rfl⟩
      · rename_i hc
        constructor
        · intro h
          cases h
        · rintro ⟨ds, hne, -, hdigits, heq⟩
          obtain ⟨d, ds, rfl⟩ := List.exists_cons_of_ne_nil hne
          obtain ⟨rfl, -⟩ := List.cons.inj heq
          exact absurd (hdigits c List.mem_cons_self) hc

theorem of_mem_afterGroup {cs rest : List Char} (h : rest ∈ afterGroup cs) :
    ∃ ds c, ds ≠ [] ∧ (∀ d ∈ ds, d.isDigit = true) ∧ cs = ds ++ c :: rest := by
  obtain ⟨mid, hmid, hany⟩ := List.mem_flatMap.1 h
  obtain ⟨ds, hne, -, hdigits, rfl⟩ := mem_afterDigits.1 hmid
  cases mid with
  | nil => cases hany
  | cons c mid =>
    rw [afterAny] at hany
    split at hany
    · cases hany
    · rw [List.mem_singleton.1 hany]
      exact ⟨ds, c, hne, hdigits, rfl⟩

/-- A text that the expression matches: four runs of digits with some character between them. -/
theorem of_regexMatches {cs : List Char} (h : regexMatches cs = true) : ∃ ds₁ c₁ ds₂ c₂ ds₃ c₃ ds₄,
    cs = ds₁ ++ c₁ :: (ds₂ ++ c₂ :: (ds₃ ++ c₃ :: ds₄)) ∧
      ∀ ds ∈ [ds₁, ds₂, ds₃, ds₄], ds ≠ [] ∧ ∀ d ∈ ds, d.isDigit = true := by
  obtain ⟨rest, hmem, hrest⟩ := List.any_eq_true.1 h
  rw [List.isEmpty_iff.1 hrest] at hmem
  obtain ⟨r₃, hr₃, hlast⟩ := List.mem_flatMap.1 hmem
  obtain ⟨r₂, hr₂, hg₃⟩ := List.mem_flatMap.1 hr₃
  obtain ⟨r₁, hr₁, hg₂⟩ := List.mem_flatMap.1 hr₂
  obtain ⟨ds₁, c₁, hne₁, hd₁, rfl⟩ := of_mem_afterGroup hr₁
  obtain ⟨ds₂, c₂, hne₂, hd₂, rfl⟩ := of_mem_afterGroup hg₂
  obtain ⟨ds₃, c₃, hne₃, hd₃, rfl⟩ := of_mem_afterGroup hg₃
  obtain ⟨ds₄, hne₄, -, hd₄, rfl⟩ := mem_afterDigits.1 hlast
  refine ⟨ds₁, c₁, ds₂, c₂, ds₃, c₃, ds₄, by simp, ?_⟩
  simp only [List.mem_cons, List.not_mem_nil, or_false]
  rintro ds (rfl | rfl | rfl | rfl)
  · exact ⟨hne₁, hd₁⟩
  · exact ⟨hne₂, hd₂⟩
  · exact ⟨hne₃, hd₃⟩
  · exact ⟨hne₄, hd₄⟩

theorem no_dot_of_digits {ds : List Char} (h : ∀ d ∈ ds, d.isDigit = true) : '.' ∉ ds :=
  fun hd => absurd (h _ hd) (by decide)

/-- With three dots in it the parts of a matching text are the runs of digits. -/
theorem splitOn_of_regexMatches {cs : List Char} (h : regexMatches cs = true) (hdots : cs.count '.' = 3) :
    ∃ ds₁ ds₂ ds₃ ds₄, cs.splitOn '.' = [ds₁, ds₂, ds₃, ds₄] ∧
      ∀ ds ∈ [ds₁, ds₂, ds₃, ds₄], ds ≠ [] ∧ ∀ d ∈ ds, d.isDigit = true := by
  obtain ⟨ds₁, c₁, ds₂, c₂, ds₃, c₃, ds₄, rfl, hds⟩ := of_regexMatches h
  have hdot : ∀ ds ∈ [ds₁, ds₂, ds₃, ds₄], '.' ∉ ds := fun ds hmem => no_dot_of_digits (hds ds hmem).2
  have h₁ := hdot ds₁ (by simp)
  have h₂ := hdot ds₂ (by simp)
  have h₃ := hdot ds₃ (by simp)
  have h₄ := hdot ds₄ (by simp)
  simp only [List.count_append, List.count_cons, List.count_eq_zero.2 h₁, List.count_eq_zero.2 h₂,
    List.count_eq_zero.2 h₃, List.count_eq_zero.2 h₄, beq_iff_eq] at hdots
  obtain ⟨rfl, rfl, rfl⟩ : c₁ = '.' ∧ c₂ = '.' ∧ c₃ = '.' := by
    by_cases hc₁ : c₁ = '.' <;> by_cases hc₂ : c₂ = '.' <;> by_cases hc₃ : c₃ = '.' <;> simp [hc₁, hc₂, hc₃] at hdots ⊢
  refine ⟨ds₁, ds₂, ds₃, ds₄, ?_, hds⟩
  rw [List.splitOn_append_cons_self_of_not_mem h₁, List.splitOn_append_cons_self_of_not_mem h₂,
    List.splitOn_append_cons_self_of_not_mem h₃, List.splitOn_eq_singleton h₄]

/-- Four dot-separated decimal octets without superfluous zeros, the last one 0. -/
def Canonical (baseIpAddress : List Char) : Prop := ∃ a b c : Fin 256, baseIpAddress = dotted a b c 0

/-- The address prefixes of both offers are prefixes. -/
def WellFormed (int : List Char → Option Int) (baseIpAddress : List Char) (cidrPrefix : CidrPrefix) : Prop :=
  ∀ offer, ∃ list, subnets int offer baseIpAddress cidrPrefix = some list ∧ ∀ s ∈ list, (prefix? s.2).isSome = true

theorem canonical_of_accepts {int : List Char → Option Int} (hint : ReadsDigits int) {cs : List Char} {p : CidrPrefix}
    (h : accepts int cs p = true) (hdots : cs.count '.' = 3)
    (hzero : ∀ part ∈ cs.splitOn '.', part.head? = some '0' → part = ['0']) : Canonical cs := by
  simp only [accepts, Bool.and_eq_true, decide_eq_true_eq] at h
  obtain ⟨⟨⟨⟨⟨hregex, hr₁⟩, hr₂⟩, hr₃⟩, -⟩, hr₄⟩ := h
  obtain ⟨ds₁, ds₂, ds₃, ds₄, hsplit, hds⟩ := splitOn_of_regexMatches hregex hdots
  have hread : ∀ ds ∈ [ds₁, ds₂, ds₃, ds₄], int ds = some (Nat.ofDigitChars 10 ds 0 : Int) :=
    fun ds hmem => hint ds (hds ds hmem).1 (hds ds hmem).2
  have hcanon : ∀ ds ∈ [ds₁, ds₂, ds₃, ds₄], Nat.toDigits 10 (Nat.ofDigitChars 10 ds 0) = ds :=
    fun ds hmem => toDigits_ofDigitChars (hds ds hmem).1 (hds ds hmem).2 (hzero ds (hsplit ▸ hmem))
  have hrange : ∀ n : Nat, inRange (some (n : Int)) = true → n < 256 := by
    intro n hn
    simp only [inRange, Bool.and_eq_true, decide_eq_true_eq] at hn
    omega
  rw [_X1i_, _X1_, hsplit, List.head?_cons, Option.bind_some, hread ds₁ (by simp)] at hr₁
  rw [_X2i_, _X2_, hsplit, List.drop_succ_cons, List.drop_zero, List.head?_cons, Option.bind_some,
    hread ds₂ (by simp)] at hr₂
  rw [_X3i_, _X3_, hsplit, List.drop_succ_cons, List.drop_succ_cons, List.drop_zero, List.head?_cons,
    Option.bind_some, hread ds₃ (by simp)] at hr₃
  have hlast : _X4_ cs = some ds₄ := by
    rw [_X4_, hsplit]
    rfl
  rw [_X4i_, hlast, Option.bind_some, hread ds₄ (by simp)] at hr₄
  have hzero₄ : Nat.ofDigitChars 10 ds₄ 0 = 0 := by simpa using hr₄
  refine ⟨⟨_, hrange _ hr₁⟩, ⟨_, hrange _ hr₂⟩, ⟨_, hrange _ hr₃⟩, ?_⟩
  have hjoin : List.intercalate ['.'] (cs.splitOn '.') = cs := List.intercalate_splitOn _
  have hd₄ := hcanon ds₄ (by simp)
  rw [hzero₄] at hd₄
  rw [dotted, hcanon ds₁ (by simp), hcanon ds₂ (by simp), hcanon ds₃ (by simp), hd₄, ← hjoin, hsplit]
  simp [List.intercalate, List.intersperse]

theorem wellFormed_of_canonical {int : List Char → Option Int} (hint : ReadsDigits int) {cs : List Char} {p : CidrPrefix}
    (h : thirdOctetValid int cs p = true) (hc : Canonical cs) : WellFormed int cs p := by
  obtain ⟨a, b, c, rfl⟩ := hc
  intro offer
  have hplan := planOk_blocks (a := a) (b := b) (by omega) (by omega) (by omega) offer (thirdOctetValid_dotted hint a b c h)
  refine ⟨_, subnets_dotted hint a b c offer p, fun s hs => ?_⟩
  obtain ⟨_, _, _, _, _, _, _, _, _, _, q, hq, -⟩ := hplan.each s hs
  rw [hq]
  rfl

theorem of_canonical {cs : List Char} (h : Canonical cs) :
    cs.count '.' = 3 ∧ ∀ octet ∈ cs.splitOn '.', octet.head? = some '0' → octet = ['0'] := by
  obtain ⟨a, b, c, rfl⟩ := h
  have hdot : ∀ n, (Nat.toDigits 10 n).count '.' = 0 := fun n => List.count_eq_zero.2 (not_mem_toDigits (by decide) n)
  refine ⟨by simp [dotted, List.count_append, hdot], fun octet hoctet hhead => ?_⟩
  have hnum : ∃ n, octet = Nat.toDigits 10 n := by
    rw [splitOn_dotted] at hoctet
    simp only [List.mem_cons, List.not_mem_nil, or_false] at hoctet
    rcases hoctet with rfl | rfl | rfl | rfl <;> exact ⟨_, rfl⟩
  obtain ⟨n, rfl⟩ := hnum
  by_cases hn : n = 0
  · rw [hn]
    rfl
  · exact absurd hhead (Lib.Json.head_toDigits hn)

/-- An accepted text is an address, and gives prefixes, exactly when it has three
dots and no octet has a superfluous zero. -/
theorem accepts_canonical_iff {int : List Char → Option Int} (hint : ReadsDigits int) (baseIpAddress : List Char)
    (cidrPrefix : CidrPrefix) (h : accepts int baseIpAddress cidrPrefix = true) :
    (Canonical baseIpAddress ∧ WellFormed int baseIpAddress cidrPrefix) ↔
      baseIpAddress.count '.' = 3 ∧ ∀ octet ∈ baseIpAddress.splitOn '.', octet.head? = some '0' → octet = ['0'] := by
  have hthird : thirdOctetValid int baseIpAddress cidrPrefix = true := by
    simp only [accepts, Bool.and_eq_true] at h
    exact h.1.2
  constructor
  · exact fun hc => of_canonical hc.1
  · rintro ⟨hdots, hzero⟩
    have hcanonical := canonical_of_accepts hint h hdots hzero
    exact ⟨hcanonical, wellFormed_of_canonical hint hthird hcanonical⟩

/-! ## At concrete addresses -/

/-- What `int` makes of digits. -/
def readInt (cs : List Char) : Option Int :=
  if cs ≠ [] ∧ cs.all Char.isDigit then some (Nat.ofDigitChars 10 cs 0) else none

theorem readInt_readsDigits : ReadsDigits readInt := by
  intro cs hne hdigits
  rw [readInt, if_pos ⟨hne, List.all_eq_true.2 hdigits⟩]

theorem subnets_planOk_p22 : ∃ vnet list, prefix? (address_space (dotted 10 0 4 0) .p22) = some vnet ∧ vnet.Aligned ∧
    subnets readInt .azhop (dotted 10 0 4 0) .p22 = some list ∧ PlanOk vnet list :=
  subnets_planOk readInt_readsDigits .azhop .p22 10 0 4 (by decide)

theorem accepts_canonical_p22 :
    (Canonical "10.0.4.0".toList ∧ WellFormed readInt "10.0.4.0".toList .p22) ↔
      "10.0.4.0".toList.count '.' = 3 ∧ ∀ octet ∈ "10.0.4.0".toList.splitOn '.', octet.head? = some '0' → octet = ['0'] :=
  accepts_canonical_iff readInt_readsDigits "10.0.4.0".toList .p22 (by decide)

/-- A digit stands where the expression has its unescaped point, and the text has three parts. -/
theorem accepts_three_parts : accepts readInt "10.0.000".toList .p24 = true ∧ ¬Canonical "10.0.000".toList := by
  refine ⟨by decide, fun h => ?_⟩
  have hdots := (of_canonical h).1
  revert hdots
  decide

end AzHop.Marketplace
