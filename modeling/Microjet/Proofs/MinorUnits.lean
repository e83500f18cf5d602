import Microjet.Core.Money

/-!
# Minor units

`MinorUnits` comes to the nearest whole number of units and returns its low 64 bits, which is
the number itself if the amount lies within half a unit of the 64-bit integers.
-/

namespace Microjet.Money

open Decimals

/-- The amount in minor units. -/
def exactUnits (m : Money) : ℚ := m.value.toRat * 10 ^ m.currencyCode.exponent

theorem minorUnits_eq (m : Money) :
    m.minorUnits = Int64.ofInt (m.value.shift m.currencyCode.exponent).round.value := by
  have hexp (d : Decimal) : d.round.exp = 0 := by
    rw [Decimal.round]
    split
    · next h => exact h
    · rfl
  rw [minorUnits, intPart, Decimal.rescale, hexp, if_neg (by decide)]
  show Int64.ofInt (_ * 10 ^ 0) = _
  rw [pow_zero, Int.mul_one]

theorem toInt_ofInt_eq {n : Int} (hlow : -1 ≤ (Int64.ofInt n).toInt - n)
    (hhigh : (Int64.ofInt n).toInt - n ≤ 1) : (Int64.ofInt n).toInt = n := by
  obtain ⟨k, hk⟩ := Int.dvd_self_sub_bmod (x := n) (m := Int64.size)
  rw [← Int64.toInt_ofInt] at hk
  have hsize : ((Int64.size : Nat) : Int) = 18446744073709551616 := rfl
  rw [hsize] at hk
  omega

theorem round_near (d : Decimal) : |(d.round.value : ℚ) - d.toRat| ≤ 1 / 2 := by
  rw [abs_le]
  rcases le_total 0 d.toRat with h | h
  · obtain ⟨hle, hlt⟩ := Decimal.round_nonneg h
    constructor <;> linarith
  · obtain ⟨hlt, hle⟩ := Decimal.round_nonpos h
    constructor <;> linarith

theorem round_fits_iff (d : Decimal) :
    (-2 ^ 63 ≤ d.round.value ∧ d.round.value < 2 ^ 63) ↔
      (-2 ^ 63 - 1 / 2 < d.toRat ∧ d.toRat < 2 ^ 63 - 1 / 2) := by
  have hlow : -2 ^ 63 ≤ d.round.value ↔ (-2 ^ 63 - 1 : ℚ) < d.round.value := by
    rw [← Int.sub_one_lt_iff]
    norm_cast
  have hlow' : (-2 ^ 63 - 1 : ℚ) < d.round.value ↔ (-2 ^ 63 : ℚ) ≤ d.round.value := by
    rw [← hlow]
    norm_cast
  have hhigh : d.round.value < 2 ^ 63 ↔ (d.round.value : ℚ) < 2 ^ 63 := by norm_cast
  have hhigh' : (d.round.value : ℚ) < 2 ^ 63 ↔ (d.round.value : ℚ) ≤ 2 ^ 63 - 1 := by
    rw [← hhigh, ← Int.le_sub_one_iff]
    norm_cast
  rw [hlow, hhigh]
  rcases le_total 0 d.toRat with h | h
  · obtain ⟨hle, hlt⟩ := Decimal.round_nonneg h
    rw [hhigh']
    constructor
    · rintro ⟨-, hfits⟩
      constructor <;> linarith
    · rintro ⟨-, hfits⟩
      rw [← hhigh']
      constructor <;> linarith
  · obtain ⟨hlt, hle⟩ := Decimal.round_nonpos h
    rw [hlow']
    constructor
    · rintro ⟨hfits, -⟩
      constructor <;> linarith
    · rintro ⟨hfits, -⟩
      rw [← hlow']
      constructor <;> linarith

/-- `MinorUnits` is the nearest unit exactly if it fits into 64 bits, and gives back what
`FromMinorUnits` was given. -/
theorem minorUnits_nearest_iff (m : Money) :
    (|(m.minorUnits.toInt : ℚ) - m.exactUnits| ≤ 1 / 2 ↔
      -2 ^ 63 - 1 / 2 < m.exactUnits ∧ m.exactUnits < 2 ^ 63 - 1 / 2) ∧
    ∀ (a : Int64) (c : CurrencyCode), (fromMinorUnits a c).minorUnits = a := by
  refine ⟨?_, fun a c => ?_⟩
  · have hexact : m.exactUnits = (m.value.shift m.currencyCode.exponent).toRat :=
      (Decimal.toRat_shift _ _).symm
    rw [minorUnits_eq, hexact]
    generalize m.value.shift m.currencyCode.exponent = d
    have hnear := round_near d
    rw [← round_fits_iff]
    constructor
    · -- two whole numbers near one amount differ by one at most
      intro hret
      rw [abs_le] at hnear hret
      have hlow : (-1 : ℚ) ≤ (Int64.ofInt d.round.value).toInt - d.round.value := by linarith
      have hhigh : ((Int64.ofInt d.round.value).toInt : ℚ) - d.round.value ≤ 1 := by linarith
      have heq := toInt_ofInt_eq (by exact_mod_cast hlow) (by exact_mod_cast hhigh)
      rw [← heq]
      exact ⟨Int64.le_toInt _, Int64.toInt_lt _⟩
    · rintro ⟨hlow, hhigh⟩
      rw [Int64.toInt_ofInt_of_le hlow hhigh]
      exact hnear
  · have hwhole : ((fromMinorUnits a c).value.shift c.exponent).exp = 0 := by
      show -c.exponent + c.exponent = 0
      omega
    rw [minorUnits_eq]
    show Int64.ofInt ((fromMinorUnits a c).value.shift c.exponent).round.value = a
    rw [Decimal.round, if_pos hwhole]
    exact Int64.ofInt_toInt a

/-- A hundred quadrillion dollars are `10 ^ 19` cents, and come back as a negative number. -/
theorem cents_wrap :
    let m : Money := ⟨⟨100000000000000000, 0⟩, bytes "USD"⟩
    m.exactUnits = 10000000000000000000 ∧ m.minorUnits.toInt = -8446744073709551616 ∧
      ¬ |(m.minorUnits.toInt : ℚ) - m.exactUnits| ≤ 1 / 2 := by
  have hexact : (⟨⟨100000000000000000, 0⟩, bytes "USD"⟩ : Money).exactUnits =
      10000000000000000000 := by
    have hexp : CurrencyCode.exponent (bytes "USD") = 2 := by decide
    rw [exactUnits, hexp, Decimal.toRat]
    norm_num
  have hret : (⟨⟨100000000000000000, 0⟩, bytes "USD"⟩ : Money).minorUnits.toInt =
      -8446744073709551616 := by decide
  refine ⟨hexact, hret, ?_⟩
  rw [hexact, hret]
  norm_num

end Microjet.Money
