import AzHop.Lib.Objects
import AzHop.Lib.Split
import Mathlib.Algebra.Group.Nat.Defs
import Mathlib.Data.List.Induction
import Mathlib.Data.Nat.Notation
import Mathlib.Tactic.Common
/-!
# IPv4 prefixes

The text of a prefix, `10.0.1.0/24` or a single address, read into a network
and a length, and the addresses it covers. Two prefixes that differ before
the shorter length cover no address in common (`disjoint_of_apart`).
-/
namespace Lib.Ipv4

/-- An address as a number. -/
abbrev Address := Fin (2 ^ 32)

/-- The addresses that agree with `network` in their first `length` bits. -/
structure Prefix where
  network : Nat
  length : Nat
  deriving DecidableEq

/-- The first `length` bits of `a` are those of the network. -/
def Prefix.covers (p : Prefix) (a : Address) : Bool :=
  a.val / 2 ^ (32 - p.length) = p.network / 2 ^ (32 - p.length)

/-! ## Reading a prefix -/

/-- The value of a digit. -/
def digit? (c : Char) : Option Nat := if '0' ≤ c ∧ c ≤ '9' then some (c.toNat - '0'.toNat) else none

/-- A number of at least one digit, at most `max`. -/
def number? (max : Nat) (cs : List Char) : Option Nat := do
  let ds ← cs.mapM digit?
  let n := ds.foldl (fun n d => 10 * n + d) 0
  if cs ≠ [] ∧ n ≤ max then some n else none

/-- Four numbers with dots between them. -/
def address? (cs : List Char) : Option Nat := do
  let ns ← (cs.splitOn '.').mapM (number? 255)
  if ns.length = 4 then some (ns.foldl (fun n d => 256 * n + d) 0) else none

/-- An address, with a length or without. -/
def prefix? (cs : List Char) : Option Prefix :=
  match cs.splitOn '/' with
  | [a] => (address? a).map fun n => ⟨n, 32⟩
  | [a, l] => do
    let n ← address? a
    let k ← number? 32 l
    return ⟨n, k⟩
  | _ => none

/-- The address lies in the prefix `s` spells. -/
def covers (s : String) (a : Address) : Bool :=
  match prefix? s.toList with
  | some p => p.covers a
  | none => false

example : prefix? "10.0.1.0/24".toList = some ⟨167772416, 24⟩ := by decide

/-! ## Two prefixes -/

/-- An address a prefix covers has the network's first `n` bits, for every `n`
up to the length. -/
theorem Prefix.covers_le {p : Prefix} {a : Address} (h : p.covers a = true) {n : Nat} (hn : n ≤ p.length)
    (h32 : p.length ≤ 32) : a.val / 2 ^ (32 - n) = p.network / 2 ^ (32 - n) := by
  have hs : 32 - n = (32 - p.length) + (p.length - n) := by omega
  have ha : a.val / 2 ^ (32 - p.length) = p.network / 2 ^ (32 - p.length) := by simpa [Prefix.covers] using h
  rw [hs, Nat.pow_add, ← Nat.div_div_eq_div_mul, ← Nat.div_div_eq_div_mul, ha]

/-- The prefixes differ before the end of the shorter one. -/
def Prefix.apart (p q : Prefix) : Bool :=
  p.length ≤ 32 && q.length ≤ 32 &&
    p.network / 2 ^ (32 - min p.length q.length) ≠ q.network / 2 ^ (32 - min p.length q.length)

theorem Prefix.disjoint_of_apart {p q : Prefix} (h : p.apart q = true) {a : Address} (hp : p.covers a = true) :
    q.covers a = false := by
  simp only [apart, Bool.and_eq_true, decide_eq_true_eq] at h
  obtain ⟨⟨hlp, hlq⟩, hne⟩ := h
  cases hq : q.covers a with
  | false => rfl
  | true =>
    have h1 := covers_le hp (Nat.min_le_left p.length q.length) hlp
    have h2 := covers_le hq (Nat.min_le_right p.length q.length) hlq
    exact absurd (h1.symm.trans h2) hne

theorem covers_eq {s : String} {p : Prefix} (h : prefix? s.toList = some p) (a : Address) : covers s a = p.covers a := by
  rw [covers, h]

/-- The texts spell prefixes that share no address. -/
def apart (s t : String) : Bool :=
  match prefix? s.toList, prefix? t.toList with
  | some p, some q => p.apart q
  | _, _ => true

theorem disjoint_of_apart {s t : String} (h : apart s t = true) {a : Address} (hs : covers s a = true) :
    covers t a = false := by
  unfold apart at h
  unfold covers at hs ⊢
  split at h
  · rename_i p q hp hq
    rw [hp] at hs
    rw [hq]
    exact p.disjoint_of_apart h hs
  · rename_i hno
    split
    · rename_i q hq
      split at hs
      · rename_i p hp
        exact absurd hq (hno p q hp)
      · cases hs
    · rfl

/-- A prefix inside another one. -/
theorem covers_of_within {s t : String} {p q : Prefix} (hs : prefix? s.toList = some p) (ht : prefix? t.toList = some q)
    (hlen : q.length ≤ p.length ∧ p.length ≤ 32)
    (hnet : p.network / 2 ^ (32 - q.length) = q.network / 2 ^ (32 - q.length)) {a : Address}
    (ha : covers s a = true) : covers t a = true := by
  rw [covers_eq hs] at ha
  rw [covers_eq ht, Prefix.covers, decide_eq_true_eq, Prefix.covers_le ha hlen.1 hlen.2, hnet]

/-! ## Intervals -/

/-- No bit after the first `length` is set. -/
def Prefix.Aligned (p : Prefix) : Prop := p.network % 2 ^ (32 - p.length) = 0

/-- An aligned prefix covers the addresses from its network on. -/
theorem Prefix.covers_iff {p : Prefix} (h : p.Aligned) (a : Address) :
    p.covers a = true ↔ p.network ≤ a.val ∧ a.val < p.network + 2 ^ (32 - p.length) := by
  obtain ⟨n, hn⟩ := Nat.dvd_of_mod_eq_zero h
  have hpos : 0 < 2 ^ (32 - p.length) := Nat.two_pow_pos _
  rw [Prefix.covers, decide_eq_true_eq, hn, Nat.mul_div_cancel_left _ hpos, Nat.div_eq_iff hpos]
  have hcomm : n * 2 ^ (32 - p.length) = 2 ^ (32 - p.length) * n := Nat.mul_comm _ _
  omega

/-! ## Writing a prefix -/

/-- The text of an address. -/
def dotted (a b c d : Nat) : List Char :=
  Nat.toDigits 10 a ++ '.' :: Nat.toDigits 10 b ++ '.' :: Nat.toDigits 10 c ++ '.' :: Nat.toDigits 10 d

/-- The text of a prefix. -/
def cidr (a b c d length : Nat) : List Char := dotted a b c d ++ '/' :: Nat.toDigits 10 length

theorem digit?_of_isDigit {c : Char} (h : c.isDigit = true) : digit? c = some (c.toNat - '0'.toNat) := by
  have hrange : '0' ≤ c ∧ c ≤ '9' := by
    have hval : (decide (c.val ≥ 48) && decide (c.val ≤ 57)) = true := h
    simp only [Bool.and_eq_true, decide_eq_true_eq] at hval
    exact hval
  rw [digit?, if_pos hrange]

/-- Digits are read as the number they spell. -/
theorem number?_of_isDigit {max : Nat} {cs : List Char} (hne : cs ≠ []) (h : ∀ c ∈ cs, c.isDigit = true)
    (hmax : Nat.ofDigitChars 10 cs 0 ≤ max) : number? max cs = some (Nat.ofDigitChars 10 cs 0) := by
  have hdigits : cs.mapM digit? = some (cs.map fun c => c.toNat - '0'.toNat) :=
    Lib.Objects.mapM_eq_map fun c hc => digit?_of_isDigit (h c hc)
  have hfold : (cs.map fun c => c.toNat - '0'.toNat).foldl (fun n d => 10 * n + d) 0 = Nat.ofDigitChars 10 cs 0 :=
    List.foldl_map
  rw [number?, hdigits]
  simp only [Option.bind_eq_bind, Option.bind_some, hfold]
  rw [if_pos ⟨hne, hmax⟩]

theorem number?_toDigits {max n : Nat} (h : n ≤ max) : number? max (Nat.toDigits 10 n) = some n := by
  have hdigits : ∀ c ∈ Nat.toDigits 10 n, c.isDigit = true :=
    fun c hc => Nat.isDigit_of_mem_toDigits (by decide) (by decide) hc
  rw [number?_of_isDigit Nat.toDigits_ne_nil hdigits (by rwa [Nat.ofDigitChars_ten_toDigits]),
    Nat.ofDigitChars_ten_toDigits]

theorem not_mem_toDigits {c : Char} (h : c.isDigit = false) (n : Nat) : c ∉ Nat.toDigits 10 n := by
  intro hc
  have hdigit := Nat.isDigit_of_mem_toDigits (by decide) (by decide) hc
  rw [h] at hdigit
  cases hdigit

theorem splitOn_dotted (a b c d : Nat) :
    (dotted a b c d).splitOn '.' = [Nat.toDigits 10 a, Nat.toDigits 10 b, Nat.toDigits 10 c, Nat.toDigits 10 d] := by
  have hdot : ∀ n, '.' ∉ Nat.toDigits 10 n := not_mem_toDigits (by decide)
  simp only [dotted, List.append_assoc, List.cons_append]
  rw [List.splitOn_append_cons_self_of_not_mem (hdot a), List.splitOn_append_cons_self_of_not_mem (hdot b),
    List.splitOn_append_cons_self_of_not_mem (hdot c), List.splitOn_eq_singleton (hdot d)]

theorem address?_dotted {a b c d : Nat} (ha : a ≤ 255) (hb : b ≤ 255) (hc : c ≤ 255) (hd : d ≤ 255) :
    address? (dotted a b c d) = some (256 * (256 * (256 * a + b) + c) + d) := by
  rw [address?, splitOn_dotted]
  simp [number?_toDigits, ha, hb, hc, hd]

theorem prefix?_cidr {a b c d length : Nat} (ha : a ≤ 255) (hb : b ≤ 255) (hc : c ≤ 255) (hd : d ≤ 255)
    (hl : length ≤ 32) : prefix? (cidr a b c d length) = some ⟨256 * (256 * (256 * a + b) + c) + d, length⟩ := by
  have hslash : ∀ n, '/' ∉ Nat.toDigits 10 n := not_mem_toDigits (by decide)
  have haddress : '/' ∉ dotted a b c d := by simp [dotted, hslash]
  have hsplit : (cidr a b c d length).splitOn '/' = [dotted a b c d, Nat.toDigits 10 length] := by
    rw [cidr, List.splitOn_append_cons_self_of_not_mem haddress, List.splitOn_eq_singleton (hslash length)]
  rw [prefix?, hsplit]
  simp [address?_dotted ha hb hc hd, number?_toDigits hl]

/-- Digits that do not start with a superfluous zero are those of their number. -/
theorem toDigits_ofDigitChars {cs : List Char} (hne : cs ≠ []) (h : ∀ c ∈ cs, c.isDigit = true)
    (hzero : cs.head? = some '0' → cs = ['0']) : Nat.toDigits 10 (Nat.ofDigitChars 10 cs 0) = cs := by
  have hdigit : ∀ c : Char, c.isDigit = true → c.toNat - '0'.toNat < 10 ∧ (c.toNat - '0'.toNat).digitChar = c := by
    intro c hc
    have hval : (decide (c.val ≥ 48) && decide (c.val ≤ 57)) = true := hc
    have hrange : 48 ≤ c.toNat ∧ c.toNat ≤ 57 := by
      simp only [Bool.and_eq_true, decide_eq_true_eq, ge_iff_le, UInt32.le_iff_toNat_le] at hval
      exact hval
    have hof : c = Char.ofNat c.toNat := (Char.ofNat_toNat c).symm
    obtain ⟨n, hn⟩ : ∃ n, c.toNat = 48 + n := ⟨c.toNat - 48, by omega⟩
    have hlt : n < 10 := by omega
    have hchar : ∀ m, m < 10 → m.digitChar = Char.ofNat (48 + m) := by decide
    have hsub : c.toNat - '0'.toNat = n := by
      have hz : '0'.toNat = 48 := rfl
      omega
    rw [hsub]
    exact ⟨hlt, by rw [hchar n hlt, ← hn, ← hof]⟩
  induction cs using List.reverseRecOn with
  | nil => exact absurd rfl hne
  | append_singleton cs c ih =>
    obtain ⟨hlt, hchar⟩ := hdigit c (h c (by simp))
    rw [Nat.ofDigitChars_append, Nat.ofDigitChars_cons, Nat.ofDigitChars_nil]
    by_cases hnil : cs = []
    · subst hnil
      rw [Nat.ofDigitChars_nil, Nat.mul_zero, Nat.zero_add, Nat.toDigits_of_lt_base hlt, hchar]
      rfl
    · have hhead : cs.head? ≠ some '0' := by
        intro hh
        have hwhole := hzero (by rw [List.head?_append_of_ne_nil _ hnil, hh])
        have hlength := congrArg List.length hwhole
        rw [List.length_append] at hlength
        exact hnil (List.length_eq_zero_iff.1 (Nat.add_right_cancel hlength))
      have hrest := ih hnil (fun d hd => h d (List.mem_append_left _ hd)) fun hh => absurd hh hhead
      have hpos : 0 < Nat.ofDigitChars 10 cs 0 := by
        rcases Nat.eq_zero_or_pos (Nat.ofDigitChars 10 cs 0) with h0 | h0
        · rw [h0] at hrest
          exact absurd (by rw [← hrest]; rfl) hhead
        · exact h0
      rw [← Nat.toDigits_append_toDigits (by decide) hpos hlt, hrest, Nat.toDigits_of_lt_base hlt, hchar]

end Lib.Ipv4
