import Mathlib.Algebra.Order.Field.Power
import Mathlib.Data.Rat.Cast.Order
import Mathlib.Tactic.FieldSimp
import Mathlib.Tactic.Linarith

/-!
# Decimal numbers

`round` keeps one place more, moves away from zero by half a unit and cuts then: the result is
the nearest whole number, of two the one away from zero (`round_nonneg`, `round_nonpos`).
-/

namespace Decimals

/-- `value * 10 ^ exp`. -/
structure Decimal where
  value : Int
  exp : Int
  deriving DecidableEq, Repr

namespace Decimal

/-- The rational it is. -/
def toRat (d : Decimal) : ℚ := d.value * 10 ^ d.exp

/-- Times a power of ten. -/
def shift (d : Decimal) (places : Int) : Decimal := ⟨d.value, d.exp + places⟩

/-- The decimal with another exponent; the division is towards zero. -/
def rescale (d : Decimal) (exp : Int) : Decimal :=
  if d.exp < exp then ⟨d.value.tdiv (10 ^ (exp - d.exp).toNat), exp⟩
  else ⟨d.value * 10 ^ (d.exp - exp).toNat, exp⟩

/-- Tenths to the nearest whole: half a unit away from zero, then cut. -/
def roundTenths (cut : Int) : Int :=
  let moved := if cut < 0 then cut - 5 else cut + 5
  if moved / 10 < 0 ∧ moved % 10 ≠ 0 then moved / 10 + 1 else moved / 10

/-- To a whole number. -/
def round (d : Decimal) : Decimal :=
  if d.exp = 0 then d else ⟨roundTenths (d.rescale (-1)).value, 0⟩

theorem toRat_shift (d : Decimal) (places : Int) :
    (d.shift places).toRat = d.toRat * 10 ^ places := by
  rw [toRat, toRat, shift, zpow_add₀ (by norm_num), mul_assoc]

variable {d : Decimal}

theorem toRat_nonneg : 0 ≤ d.toRat ↔ 0 ≤ d.value := by
  rw [toRat, mul_nonneg_iff_of_pos_right (zpow_pos (by norm_num) _), Int.cast_nonneg_iff]

theorem rescale_nonneg (h : 0 ≤ d.value) (exp : Int) :
    0 ≤ (d.rescale exp).value ∧ ((d.rescale exp).value : ℚ) * 10 ^ exp ≤ d.toRat ∧
      d.toRat < ((d.rescale exp).value + 1) * 10 ^ exp := by
  have hpos (e : Int) : (0 : ℚ) < 10 ^ e := zpow_pos (by norm_num) e
  by_cases hexp : d.exp < exp
  · obtain ⟨k, hk⟩ := Int.eq_ofNat_of_zero_le (show 0 ≤ exp - d.exp by omega)
    have hpow : (10 : ℚ) ^ exp = 10 ^ k * 10 ^ d.exp := by
      rw [← zpow_natCast, ← zpow_add₀ (by norm_num)]
      congr 1
      omega
    have hten : (0 : Int) < 10 ^ k := Int.pow_pos (by norm_num)
    have hcut : (d.rescale exp).value = d.value / 10 ^ k := by
      rw [rescale, if_pos hexp, hk, Int.toNat_natCast]
      exact Int.tdiv_eq_ediv_of_nonneg h
    have hle : d.value / 10 ^ k * 10 ^ k ≤ d.value := Int.ediv_mul_le _ hten.ne'
    have hlt : d.value < (d.value / 10 ^ k + 1) * 10 ^ k := Int.lt_ediv_add_one_mul_self _ hten
    rw [hcut, toRat, hpow, ← mul_assoc, ← mul_assoc]
    refine ⟨Int.ediv_nonneg h hten.le, ?_, ?_⟩
    · exact mul_le_mul_of_nonneg_right (by exact_mod_cast hle) (hpos _).le
    · exact mul_lt_mul_of_pos_right (by exact_mod_cast hlt) (hpos _)
  · obtain ⟨k, hk⟩ := Int.eq_ofNat_of_zero_le (show 0 ≤ d.exp - exp by omega)
    have hpow : (10 : ℚ) ^ d.exp = 10 ^ k * 10 ^ exp := by
      rw [← zpow_natCast, ← zpow_add₀ (by norm_num)]
      congr 1
      omega
    have hvalue : (d.rescale exp).value = d.value * 10 ^ k := by
      rw [rescale, if_neg hexp, hk, Int.toNat_natCast]
    have heq : d.toRat = ((d.rescale exp).value : ℚ) * 10 ^ exp := by
      rw [hvalue, toRat, hpow, Int.cast_mul, Int.cast_pow, Int.cast_ofNat, mul_assoc]
    refine ⟨?_, heq.ge, ?_⟩
    · rw [hvalue]
      exact Int.mul_nonneg h (Int.pow_nonneg (by norm_num))
    · rw [heq, add_mul, one_mul]
      exact lt_add_of_pos_right _ (hpos exp)

theorem roundTenths_nonneg {cut : Int} (h : 0 ≤ cut) :
    10 * roundTenths cut - 5 ≤ cut ∧ cut + 1 ≤ 10 * roundTenths cut + 5 := by
  rw [roundTenths, if_neg (show ¬ cut < 0 by omega)]
  rw [if_neg (by omega)]
  omega

theorem roundTenths_neg (cut : Int) : roundTenths (-cut) = -roundTenths cut := by
  rw [roundTenths, roundTenths]
  rcases Int.lt_trichotomy cut 0 with h | rfl | h
  · rw [if_pos h, if_neg (show ¬ -cut < 0 by omega)]
    split <;> split <;> omega
  · rfl
  · rw [if_neg (show ¬ cut < 0 by omega), if_pos (show -cut < 0 by omega)]
    split <;> split <;> omega

theorem round_nonneg (h : 0 ≤ d.toRat) :
    (d.round.value : ℚ) - 1 / 2 ≤ d.toRat ∧ d.toRat < d.round.value + 1 / 2 := by
  have hvalue : 0 ≤ d.value := toRat_nonneg.mp h
  by_cases hexp : d.exp = 0
  · have heq : d.toRat = d.value := by rw [toRat, hexp, zpow_zero, mul_one]
    rw [round, if_pos hexp, heq]
    constructor <;> linarith
  · obtain ⟨hcut, hle, hlt⟩ := rescale_nonneg hvalue (-1)
    obtain ⟨hlow, hhigh⟩ := roundTenths_nonneg hcut
    have hlow : 10 * (roundTenths (d.rescale (-1)).value : ℚ) - 5 ≤ (d.rescale (-1)).value := by
      exact_mod_cast hlow
    have hhigh : ((d.rescale (-1)).value : ℚ) + 1 ≤
        10 * roundTenths (d.rescale (-1)).value + 5 := by exact_mod_cast hhigh
    rw [round, if_neg hexp]
    rw [zpow_neg_one] at hle hlt
    constructor <;> linarith

/-- Its negative. -/
def neg (d : Decimal) : Decimal := ⟨-d.value, d.exp⟩

theorem toRat_neg (d : Decimal) : d.neg.toRat = -d.toRat := by
  rw [toRat, toRat, neg, Int.cast_neg, neg_mul]

theorem rescale_neg (d : Decimal) (exp : Int) :
    (d.neg.rescale exp).value = -(d.rescale exp).value := by
  rw [rescale, rescale, neg]
  split
  · exact Int.neg_tdiv _ _
  · exact Int.neg_mul _ _

theorem round_neg (d : Decimal) : d.neg.round.value = -d.round.value := by
  have hexp : d.neg.exp = d.exp := rfl
  rw [round, round, hexp]
  split
  · rfl
  · rw [rescale_neg, roundTenths_neg]

theorem round_nonpos (h : d.toRat ≤ 0) :
    (d.round.value : ℚ) - 1 / 2 < d.toRat ∧ d.toRat ≤ d.round.value + 1 / 2 := by
  have hneg : 0 ≤ d.neg.toRat := by
    rw [toRat_neg]
    linarith
  obtain ⟨hle, hlt⟩ := round_nonneg hneg
  rw [round_neg, toRat_neg, Int.cast_neg] at hle hlt
  constructor <;> linarith

end Decimal

end Decimals
