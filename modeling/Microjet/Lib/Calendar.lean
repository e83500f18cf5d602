import Mathlib.Order.Monotone.Basic

/-!
# The Gregorian calendar

Days are counted from the first of January of the year 1. `ofDays` cuts a number of days into
cycles of 400, 100, 4 and 1 years; it is the inverse of `toDays` (`toDays_ofDays`), and a later
day has a later date (`code_lt_code`).
-/

namespace Calendar

/-- A leap year. -/
def isLeap (year : Int) : Bool := year % 4 = 0 && (year % 100 ≠ 0 || year % 400 = 0)

/-- The days of the year before a month. -/
def beforeMonth (leap : Bool) (month : Nat) : Nat :=
  [0, 31, 59, 90, 120, 151, 181, 212, 243, 273, 304, 334, 365].getD (month - 1) 0 +
    if leap ∧ 2 < month then 1 else 0

/-- The days of a month. -/
def daysIn (leap : Bool) (month : Nat) : Nat :=
  beforeMonth leap (month + 1) - beforeMonth leap month

/-- A date. -/
structure Date where
  year : Int
  month : Nat
  day : Nat
  deriving DecidableEq

/-- The days before a year. -/
def beforeYear (year : Int) : Int :=
  365 * (year - 1) + (year - 1) / 4 - (year - 1) / 100 + (year - 1) / 400

/-- The number of a date. -/
def toDays (d : Date) : Int :=
  beforeYear d.year + beforeMonth (isLeap d.year) d.month + d.day - 1

/-- The year of a day, and the day in it; the last of 400 and of four years is longer. -/
def yearDay (n : Int) : Int × Nat :=
  let d := n % 146097
  let n100 := d / 36524 - d / 36524 / 4
  let d := d - 36524 * n100
  let n1 := d % 1461 / 365 - d % 1461 / 365 / 4
  (400 * (n / 146097) + 100 * n100 + 4 * (d / 1461) + n1 + 1, (d % 1461 - 365 * n1).toNat)

/-- The month and the day: that of a calendar with months of 31 days, or the next. -/
def monthDay (leap : Bool) (yday : Nat) : Nat × Nat :=
  let month := if beforeMonth leap (yday / 31 + 2) ≤ yday then yday / 31 + 2 else yday / 31 + 1
  (month, yday - beforeMonth leap month + 1)

/-- The date of a number. -/
def ofDays (n : Int) : Date :=
  let (year, yday) := yearDay n
  let (month, day) := monthDay (isLeap year) yday
  ⟨year, month, day⟩

/-- The days of a year. -/
def yearLength (year : Int) : Nat := if isLeap year then 366 else 365

theorem beforeYear_succ (year : Int) :
    beforeYear (year + 1) = beforeYear year + yearLength year := by
  unfold beforeYear yearLength isLeap
  split
  · next h =>
      simp only [Bool.and_eq_true, Bool.or_eq_true, decide_eq_true_eq] at h
      omega
  · next h =>
      simp only [Bool.and_eq_true, Bool.or_eq_true, decide_eq_true_eq] at h
      omega

theorem beforeYear_mono {y y' : Int} (h : y ≤ y') : beforeYear y ≤ beforeYear y' := by
  unfold beforeYear
  rcases Int.lt_or_eq_of_le h with hlt | rfl
  · omega
  · exact Int.le_refl _

theorem beforeYear_cycles {a b c e : Int} (hb : 0 ≤ b ∧ b ≤ 3) (hc : 0 ≤ c ∧ c ≤ 24)
    (he : 0 ≤ e ∧ e ≤ 3) :
    beforeYear (400 * a + 100 * b + 4 * c + e + 1) =
      146097 * a + 36524 * b + 1461 * c + 365 * e := by
  unfold beforeYear
  omega

theorem isLeap_cycles {a b c e : Int} (hc : 0 ≤ c ∧ c ≤ 24) (he : e = 3)
    (hlast : c = 24 → b = 3) : isLeap (400 * a + 100 * b + 4 * c + e + 1) = true := by
  unfold isLeap
  simp only [Bool.and_eq_true, Bool.or_eq_true, decide_eq_true_eq]
  omega

theorem cut_100 {d : Int} (h : 0 ≤ d ∧ d < 146097) :
    ∃ b r, d / 36524 - d / 36524 / 4 = b ∧ d - 36524 * b = r ∧ (0 ≤ b ∧ b ≤ 3) ∧
      0 ≤ r ∧ r ≤ 36524 ∧ (r = 36524 → b = 3) := by
  refine ⟨_, _, rfl, rfl, ?_⟩
  omega

theorem cut_1 {d : Int} (h : 0 ≤ d ∧ d < 1461) :
    ∃ e r, d / 365 - d / 365 / 4 = e ∧ d - 365 * e = r ∧ (0 ≤ e ∧ e ≤ 3) ∧
      0 ≤ r ∧ r ≤ 365 ∧ (r = 365 → e = 3) := by
  refine ⟨_, _, rfl, rfl, ?_⟩
  omega

theorem yearDay_spec (n : Int) :
    beforeYear (yearDay n).1 + (yearDay n).2 = n ∧ (yearDay n).2 < yearLength (yearDay n).1 := by
  obtain ⟨b, d, hb, hd, hb₃, hdays⟩ := cut_100
    ⟨Int.emod_nonneg n (by decide), Int.emod_lt_of_pos n (show (0 : Int) < 146097 by decide)⟩
  obtain ⟨e, r, he, hr, he₃, hrest⟩ := cut_1
    ⟨Int.emod_nonneg d (by decide), Int.emod_lt_of_pos d (show (0 : Int) < 1461 by decide)⟩
  have hn := Int.mul_ediv_add_emod n 146097
  have hc₄ := Int.mul_ediv_add_emod d 1461
  have hc : 0 ≤ d / 1461 ∧ d / 1461 ≤ 24 := by omega
  unfold yearDay
  dsimp only
  rw [hb, hd, he, hr, beforeYear_cycles hb₃ hc he₃, Int.toNat_of_nonneg hrest.1]
  refine ⟨by omega, ?_⟩
  unfold yearLength
  split
  · omega
  · next hleap =>
      -- a year of 366 days would be the last of four, and no last year of 100 but of 400
      have hne : r ≠ 365 := fun hlast => hleap (isLeap_cycles hc (hrest.2.2 hlast) (by omega))
      omega

theorem monthDay_spec : ∀ leap : Bool, ∀ yday : Fin 366, (leap = true ∨ yday.val < 365) →
    let md := monthDay leap yday
    1 ≤ md.1 ∧ md.1 ≤ 12 ∧ 1 ≤ md.2 ∧ md.2 ≤ daysIn leap md.1 ∧
      beforeMonth leap md.1 + md.2 = yday + 1 := by
  decide +kernel

theorem monthDay_lt_succ : ∀ leap : Bool, ∀ yday : Fin 365,
    (monthDay leap yday).1 * 100 + (monthDay leap yday).2 <
      (monthDay leap (yday.val + 1)).1 * 100 + (monthDay leap (yday.val + 1)).2 := by
  decide +kernel

theorem monthDay_lt (leap : Bool) {a b : Nat} (hab : a < b) (hb : b ≤ 365) :
    (monthDay leap a).1 * 100 + (monthDay leap a).2 <
      (monthDay leap b).1 * 100 + (monthDay leap b).2 := by
  induction b, hab using Nat.le_induction with
  | base => exact monthDay_lt_succ leap ⟨a, by omega⟩
  | succ b _ ih => exact (ih (by omega)).trans (monthDay_lt_succ leap ⟨b, by omega⟩)

/-- There is such a date. -/
structure Date.Valid (d : Date) : Prop where
  month_pos : 1 ≤ d.month
  month_le : d.month ≤ 12
  day_pos : 1 ≤ d.day
  day_le : d.day ≤ daysIn (isLeap d.year) d.month

theorem daysIn_le (leap : Bool) (month : Nat) (h : 1 ≤ month ∧ month ≤ 12) :
    daysIn leap month ≤ 31 := by
  have hall : ∀ leap : Bool, ∀ m : Fin 12, daysIn leap (m.val + 1) ≤ 31 := by decide
  have hmonth := hall leap ⟨month - 1, by omega⟩
  rwa [Nat.sub_add_cancel h.1] at hmonth

theorem ofDays_monthDay (n : Int) :
    1 ≤ (ofDays n).month ∧ (ofDays n).month ≤ 12 ∧ 1 ≤ (ofDays n).day ∧
      (ofDays n).day ≤ daysIn (isLeap (ofDays n).year) (ofDays n).month ∧
      beforeMonth (isLeap (ofDays n).year) (ofDays n).month + (ofDays n).day =
        (yearDay n).2 + 1 := by
  have hlt := (yearDay_spec n).2
  unfold yearLength at hlt
  have hyear : (yearDay n).2 < 366 := by
    split at hlt <;> omega
  refine monthDay_spec (isLeap (yearDay n).1) ⟨(yearDay n).2, hyear⟩ ?_
  split at hlt
  · next h => exact .inl h
  · exact .inr hlt

theorem valid_ofDays (n : Int) : (ofDays n).Valid := by
  obtain ⟨h₁, h₂, h₃, h₄, -⟩ := ofDays_monthDay n
  exact ⟨h₁, h₂, h₃, h₄⟩

theorem toDays_ofDays (n : Int) : toDays (ofDays n) = n := by
  obtain ⟨-, -, -, -, hday⟩ := ofDays_monthDay n
  have hyear : (ofDays n).year = (yearDay n).1 := rfl
  have hn := (yearDay_spec n).1
  rw [toDays, hyear]
  rw [hyear] at hday
  omega

/-- The date as a number `yyyymmdd`. -/
def Date.code (d : Date) : Int := (d.year * 100 + d.month) * 100 + d.day

theorem Date.Valid.day_le_31 {d : Date} (h : d.Valid) : d.day ≤ 31 :=
  h.day_le.trans (daysIn_le _ _ ⟨h.month_pos, h.month_le⟩)

theorem code_ofDays (n : Int) :
    (ofDays n).code = (yearDay n).1 * 10000 +
      ((monthDay (isLeap (yearDay n).1) (yearDay n).2).1 * 100 +
        (monthDay (isLeap (yearDay n).1) (yearDay n).2).2 : Nat) := by
  rw [Date.code, ofDays]
  dsimp only
  omega

theorem code_lt_code {m n : Int} (hmn : m < n) : (ofDays m).code < (ofDays n).code := by
  have hm := yearDay_spec m
  have hn := yearDay_spec n
  have hvm := valid_ofDays m
  have hdm := hvm.day_le_31
  have hvn := valid_ofDays n
  rcases Int.lt_trichotomy (yearDay m).1 (yearDay n).1 with hyear | hyear | hyear
  · have hyear' : (ofDays m).year < (ofDays n).year := hyear
    have hmonth := hvm.month_le
    unfold Date.code
    omega
  · -- in one year the day of the year decides
    have hday : (yearDay m).2 < (yearDay n).2 := by
      rw [hyear] at hm
      omega
    have hle : (yearDay n).2 ≤ 365 := by
      have hlt := hn.2
      unfold yearLength at hlt
      split at hlt <;> omega
    have hlt := monthDay_lt (isLeap (yearDay n).1) hday hle
    rw [code_ofDays, code_ofDays, hyear]
    omega
  · -- a later year begins after the last day of this one
    have hsucc := beforeYear_succ (yearDay n).1
    have hmono := beforeYear_mono (show (yearDay n).1 + 1 ≤ (yearDay m).1 from hyear)
    omega

end Calendar
