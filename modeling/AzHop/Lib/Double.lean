import Mathlib.Algebra.Order.Floor.Ring
import Mathlib.Algebra.Order.Archimedean.Basic
import Mathlib.Data.Int.Log
import Mathlib.Data.Rat.Floor
import Mathlib.Tactic.FieldSimp
import Mathlib.Tactic.Linarith
import Mathlib.Tactic.NormNum
import Mathlib.Tactic.Positivity
import Mathlib.Tactic.Ring
/-!
# Quotients in double precision

The doubles that are not negative, as the rationals they stand for: a result is
the nearest multiple of a unit in the last place, 53 bits below the result's
size, and the even one of two that are equally near.

Rounding up a quotient of two integers below `2 ^ 53` gives what rounding up the
exact quotient gives (`ceil_div`).
-/
namespace Lib.Double

/-- The nearest integer, and the even one of two. -/
def nearest (x : ℚ) : ℤ :=
  if x - ⌊x⌋ < 1 / 2 ∨ x - ⌊x⌋ = 1 / 2 ∧ Even ⌊x⌋ then ⌊x⌋ else ⌊x⌋ + 1

/-- The unit in the last place. -/
def ulp (q : ℚ) : ℚ := 2 ^ max (Int.log 2 q - 52) (-1074)

/-- The number with 53 bits that is nearest. -/
def rounded (q : ℚ) : ℚ := nearest (q / ulp q) * ulp q

/-- A double that is not negative. -/
inductive Value
  | finite (q : ℚ)
  | infinite
  | nan

/-- A number that is not negative, as a double. -/
def ofRat (q : ℚ) : Value := if rounded q < 2 ^ 1024 then .finite (rounded q) else .infinite

/-- The quotient of two doubles that are not negative. -/
def div : Value → Value → Value
  | .finite p, .finite q => if q = 0 then if p = 0 then .nan else .infinite else ofRat (p / q)
  | .finite _, .infinite => .finite 0
  | .infinite, .finite _ => .infinite
  | _, _ => .nan

/-- The integer above, if there is one. -/
def ceil : Value → Option ℤ
  | .finite q => some ⌈q⌉
  | _ => none

/-! ## Rounding -/

theorem nearest_intCast (k : ℤ) : nearest k = k := by simp [nearest]

theorem abs_nearest_sub_le (x : ℚ) : |(nearest x : ℚ) - x| ≤ 1 / 2 := by
  have hlo : (⌊x⌋ : ℚ) ≤ x := Int.floor_le x
  have hhi : x < ⌊x⌋ + 1 := Int.lt_floor_add_one x
  unfold nearest
  rw [abs_le]
  split
  · rename_i h
    have hhalf : x - ⌊x⌋ ≤ 1 / 2 := h.elim le_of_lt fun h => le_of_eq h.1
    constructor <;> linarith
  · rename_i h
    have hhalf : 1 / 2 ≤ x - ⌊x⌋ := le_of_not_gt fun hlt => h (Or.inl hlt)
    push_cast
    constructor <;> linarith

theorem ulp_pos (q : ℚ) : 0 < ulp q := zpow_pos (by norm_num) _

theorem abs_rounded_sub_le (q : ℚ) : |rounded q - q| ≤ ulp q / 2 := by
  have hu := ulp_pos q
  have herror := abs_nearest_sub_le (q / ulp q)
  have hscale : rounded q - q = ((nearest (q / ulp q) : ℚ) - q / ulp q) * ulp q := by
    rw [rounded, sub_mul, div_mul_cancel₀ q hu.ne']
  rw [hscale, abs_mul, abs_of_pos hu]
  nlinarith

/-- Above the smallest normal number the error is below the 53rd bit. -/
theorem abs_rounded_sub_le_of_normal {q : ℚ} (h : 2 ^ (-1022 : ℤ) ≤ q) : |rounded q - q| ≤ q / 2 ^ 53 := by
  have hq : 0 < q := lt_of_lt_of_le (zpow_pos (by norm_num) _) h
  have hlog : -1022 ≤ Int.log 2 q := (Int.zpow_le_iff_le_log (by norm_num) hq).1 (by exact_mod_cast h)
  have hulp : ulp q * 2 ^ 52 ≤ q := by
    have hmax : max (Int.log 2 q - 52) (-1074) = Int.log 2 q - 52 := max_eq_left (by omega)
    have hsplit : (2 : ℚ) ^ (Int.log 2 q - 52) * 2 ^ 52 = 2 ^ Int.log 2 q := by
      rw [← zpow_natCast (2 : ℚ) 52, ← zpow_add₀ (by norm_num)]
      congr 1
      norm_num
    rw [ulp, hmax, hsplit]
    exact_mod_cast Int.zpow_log_le_self (by norm_num) hq
  have hhalf : ulp q / 2 ≤ q / 2 ^ 53 := by
    rw [le_div_iff₀ (by positivity)]
    linarith
  exact (abs_rounded_sub_le q).trans hhalf

/-- Integers below `2 ^ 53` are doubles. -/
theorem rounded_natCast {n : ℕ} (h : n < 2 ^ 53) : rounded n = n := by
  have hlog : Nat.log 2 n ≤ 52 := Nat.le_of_lt_succ (Nat.log_lt_of_lt_pow' (by norm_num) h)
  have hulp : ulp n = (2 ^ (52 - Nat.log 2 n))⁻¹ := by
    have hmax : max ((Nat.log 2 n : ℤ) - 52) (-1074) = -((52 - Nat.log 2 n : ℕ) : ℤ) := by omega
    rw [ulp, Int.log_natCast, hmax, zpow_neg, zpow_natCast]
  have hquotient : (n : ℚ) / ulp n = ((n * 2 ^ (52 - Nat.log 2 n) : ℕ) : ℤ) := by
    rw [hulp, div_inv_eq_mul]
    push_cast
    rfl
  rw [rounded, hquotient, nearest_intCast, ← hquotient, div_mul_cancel₀ _ (ulp_pos _).ne']

theorem ofRat_eq {q : ℚ} (h : rounded q < 2 ^ 1024) : ofRat q = .finite (rounded q) := if_pos h

theorem ofRat_natCast {n : ℕ} (h : n < 2 ^ 53) : ofRat n = .finite n := by
  have hrounded := rounded_natCast h
  rw [ofRat_eq, hrounded]
  rw [hrounded]
  have hn : (n : ℚ) < 2 ^ 53 := by exact_mod_cast h
  exact hn.trans (pow_lt_pow_right₀ (by norm_num) (by norm_num))

/-! ## Quotients -/

section Quotient

variable {g r : ℕ} (hg : g < 2 ^ 53) (hr : 0 < r)

include hr in
/-- A quotient that is no integer is at least `1 / r` above the integer below. -/
theorem floor_add_le (hint : ((⌊(g / r : ℚ)⌋ : ℤ) : ℚ) ≠ g / r) : (⌊(g / r : ℚ)⌋ : ℚ) + 1 / r ≤ g / r := by
  have hrq : (0 : ℚ) < r := by exact_mod_cast hr
  have hlo : (⌊(g / r : ℚ)⌋ : ℚ) < g / r := lt_of_le_of_ne (Int.floor_le _) hint
  -- the numerators are integers
  have hnum : ⌊(g / r : ℚ)⌋ * (r : ℤ) + 1 ≤ g := by
    rw [lt_div_iff₀ hrq] at hlo
    exact_mod_cast hlo
  have hcast : (⌊(g / r : ℚ)⌋ : ℚ) * r + 1 ≤ g := by exact_mod_cast hnum
  have heq : (g / r : ℚ) - (⌊(g / r : ℚ)⌋ + 1 / r) = (g - (⌊(g / r : ℚ)⌋ * r + 1)) / r := by
    field_simp
  rw [← sub_nonneg, heq]
  exact div_nonneg (sub_nonneg.2 hcast) hrq.le

include hr in
/-- And every quotient as much below the next one. -/
theorem add_le_floor : (g / r : ℚ) + 1 / r ≤ ⌊(g / r : ℚ)⌋ + 1 := by
  have hrq : (0 : ℚ) < r := by exact_mod_cast hr
  have hhi : (g / r : ℚ) < ⌊(g / r : ℚ)⌋ + 1 := Int.lt_floor_add_one _
  have hnum : (g : ℤ) + 1 ≤ (⌊(g / r : ℚ)⌋ + 1) * r := by
    rw [div_lt_iff₀ hrq] at hhi
    exact_mod_cast hhi
  have hcast : (g : ℚ) + 1 ≤ (⌊(g / r : ℚ)⌋ + 1) * r := by exact_mod_cast hnum
  have heq : ((⌊(g / r : ℚ)⌋ : ℚ) + 1) - (g / r + 1 / r) = ((⌊(g / r : ℚ)⌋ + 1) * r - (g + 1)) / r := by
    field_simp
  rw [← sub_nonneg, heq]
  exact div_nonneg (sub_nonneg.2 hcast) hrq.le

include hg hr

/-- The error of a quotient is less than `1 / r`. -/
theorem abs_rounded_quotient_lt (hr' : r < 2 ^ 53) (hpos : 0 < g) : |rounded (g / r) - g / r| < 1 / r := by
  have hrq : (0 : ℚ) < r := by exact_mod_cast hr
  have hgq : (g : ℚ) < 2 ^ 53 := by exact_mod_cast hg
  have hnormal : (2 : ℚ) ^ (-1022 : ℤ) ≤ g / r := by
    have hsmall : (2 : ℚ) ^ (-1022 : ℤ) ≤ 1 / 2 ^ 53 := by
      rw [zpow_neg, one_div]
      exact inv_anti₀ (by positivity) (by exact_mod_cast pow_le_pow_right₀ (by norm_num) (by norm_num))
    have hone : (1 : ℚ) ≤ g := by exact_mod_cast hpos
    have hle : (r : ℚ) ≤ 2 ^ 53 := by exact_mod_cast hr'.le
    refine hsmall.trans ?_
    rw [div_le_div_iff₀ (by positivity) hrq]
    nlinarith
  refine (abs_rounded_sub_le_of_normal hnormal).trans_lt ?_
  rw [div_div, div_lt_div_iff₀ (by positivity) hrq]
  nlinarith

theorem ceil_rounded_of_not_int (hr' : r < 2 ^ 53) (hpos : 0 < g)
    (hint : ((⌊(g / r : ℚ)⌋ : ℤ) : ℚ) ≠ g / r) : ⌈rounded (g / r)⌉ = ⌈(g / r : ℚ)⌉ := by
  have hrq : (0 : ℚ) < 1 / r := one_div_pos.2 (by exact_mod_cast hr)
  have hlo := floor_add_le hr hint
  have hhi := add_le_floor (g := g) hr
  have herror := abs_lt.1 (abs_rounded_quotient_lt hg hr hr' hpos)
  have hceil : ⌈(g / r : ℚ)⌉ = ⌊(g / r : ℚ)⌋ + 1 := Int.ceil_eq_iff.2 ⟨by push_cast; linarith, by push_cast; linarith⟩
  rw [hceil, Int.ceil_eq_iff]
  constructor
  · push_cast
    linarith
  · push_cast
    linarith

theorem ceil_rounded (hr' : r < 2 ^ 53) : ⌈rounded (g / r)⌉ = ⌈(g / r : ℚ)⌉ := by
  by_cases hint : ((⌊(g / r : ℚ)⌋ : ℤ) : ℚ) = g / r
  · have hnonneg : 0 ≤ ⌊(g / r : ℚ)⌋ := Int.floor_nonneg.2 (by positivity)
    obtain ⟨n, hn⟩ := Int.eq_ofNat_of_zero_le hnonneg
    rw [hn] at hint
    have hle : n ≤ g := by
      have hdiv : (g / r : ℚ) ≤ g := div_le_self (by positivity) (by exact_mod_cast hr)
      rw [← hint] at hdiv
      exact_mod_cast hdiv
    have hrounded := rounded_natCast (lt_of_le_of_lt hle hg)
    rw [← hint]
    exact congrArg Int.ceil (by exact_mod_cast hrounded)
  · have hpos : 0 < g := by
      rcases Nat.eq_zero_or_pos g with rfl | h
      · simp at hint
      · exact h
    exact ceil_rounded_of_not_int hg hr hr' hpos hint

/-- Rounding up a quotient of doubles. -/
theorem ceil_div (hr' : r < 2 ^ 53) : ceil (div (ofRat g) (ofRat r)) = some ⌈(g / r : ℚ)⌉ := by
  have hrq : (r : ℚ) ≠ 0 := by exact_mod_cast hr.ne'
  have hfinite : rounded (g / r) < 2 ^ 1024 := by
    have hle : (g / r : ℚ) ≤ g := div_le_self (by positivity) (by exact_mod_cast hr)
    have hg' : (g : ℚ) < 2 ^ 53 := by exact_mod_cast hg
    have hceil : (⌈(g / r : ℚ)⌉ : ℚ) ≤ g := by
      rw [← Int.cast_natCast (R := ℚ) g] at hle
      rw [← Int.cast_natCast (R := ℚ) g, Int.cast_le]
      exact Int.ceil_le.2 hle
    have hrounded : rounded (g / r) ≤ ⌈rounded (g / r)⌉ := Int.le_ceil _
    rw [ceil_rounded hg hr hr'] at hrounded
    exact (hrounded.trans hceil).trans_lt (hg'.trans (pow_lt_pow_right₀ (by norm_num) (by norm_num)))
  rw [ofRat_natCast hg, ofRat_natCast hr', div, if_neg hrq, ofRat_eq hfinite, ceil, ceil_rounded hg hr hr']

end Quotient

end Lib.Double
