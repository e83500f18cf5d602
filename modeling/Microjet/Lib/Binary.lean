import Mathlib.Data.Int.Log
import Mathlib.Data.Rat.Floor
import Mathlib.Tactic.Positivity
import Microjet.Lib.Decimal

/-!
# Binary floating point

The magnitudes of a binary format, as rationals. Reading what was printed gives the number back
(`nearest_shortest`), a whole number is printed as one (`shortest_exp_nonneg`), and printing
what was read gives a decimal of few digits back (`shortest_nearest`).
-/

namespace Binary

open Decimals

/-! ## Whole numbers -/

/-- The nearest whole number, and of two the even one. -/
def roundEven (x : ℚ) : ℤ :=
  if x - ⌊x⌋ < 1 / 2 then ⌊x⌋ else if 1 / 2 < x - ⌊x⌋ then ⌊x⌋ + 1 else ⌊x⌋ + ⌊x⌋ % 2

theorem floor_le_roundEven (x : ℚ) : ⌊x⌋ ≤ roundEven x ∧ roundEven x ≤ ⌊x⌋ + 1 := by
  unfold roundEven
  split
  · omega
  · split <;> omega

@[simp] theorem roundEven_intCast (k : ℤ) : roundEven k = k := by
  simp [roundEven]

theorem abs_roundEven_sub_le (x : ℚ) : |(roundEven x : ℚ) - x| ≤ 1 / 2 := by
  have hlow := Int.floor_le x
  have hhigh := Int.lt_floor_add_one x
  unfold roundEven
  rw [abs_le]
  split
  · constructor <;> linarith
  · split
    · push_cast
      constructor <;> linarith
    · have hparity : ((⌊x⌋ % 2 : ℤ) : ℚ) = 0 ∨ ((⌊x⌋ % 2 : ℤ) : ℚ) = 1 := by
        rcases Int.emod_two_eq_zero_or_one ⌊x⌋ with h | h <;> simp [h]
      push_cast
      rcases hparity with h | h <;> rw [h] <;> constructor <;> linarith

theorem roundEven_mono {x y : ℚ} (h : x ≤ y) : roundEven x ≤ roundEven y := by
  have hfloor := Int.floor_mono h
  by_cases heq : ⌊x⌋ = ⌊y⌋
  · unfold roundEven
    rw [heq]
    split
    · split
      · exact le_rfl
      · split <;> omega
    · split
      · rw [if_neg (by linarith), if_pos (by linarith)]
      · rw [if_neg (by linarith)]
        split <;> omega
  · have hx := (floor_le_roundEven x).2
    have hy := (floor_le_roundEven y).1
    omega

theorem roundEven_le {x : ℚ} {k : ℤ} (h : x ≤ k) : roundEven x ≤ k := by
  simpa using roundEven_mono h

theorem le_roundEven {x : ℚ} {k : ℤ} (h : k ≤ x) : k ≤ roundEven x := by
  simpa using roundEven_mono h

theorem roundEven_eq {x : ℚ} {k : ℤ} (h : |x - k| < 1 / 2) : roundEven x = k := by
  have hround := abs_roundEven_sub_le x
  rw [abs_lt] at h
  rw [abs_le] at hround
  have hlow : (-1 : ℚ) < (roundEven x : ℚ) - k := by linarith
  have hhigh : (roundEven x : ℚ) - k < 1 := by linarith
  have hlow' : -1 < roundEven x - k := by exact_mod_cast hlow
  have hhigh' : roundEven x - k < 1 := by exact_mod_cast hhigh
  omega

/-! ## Numbers of a format -/

/-- So many binary digits; the last place of the smallest numbers is `emin`, and all are below
`2 ^ emax`. -/
structure Format where
  precision : ℕ
  emin : ℤ
  emax : ℤ
  pos : 0 < precision

/-- `float64` -/
def binary64 : Format := ⟨53, -1074, 1024, by omega⟩

/-- `float32` -/
def binary32 : Format := ⟨24, -149, 128, by omega⟩

namespace Format

variable (f : Format) {x y : ℚ}

/-- The last place of the numbers of the format about `x`. -/
def place (x : ℚ) : ℤ := max f.emin (Int.log 2 x - (f.precision - 1))

/-- The nearest number of the format, of two the even one. -/
def nearest (x : ℚ) : ℚ := roundEven (x / 2 ^ f.place x) * 2 ^ f.place x

/-- A number of the format, as if there was no largest one. -/
def Holds (y : ℚ) : Prop :=
  ∃ (k : ℕ) (e : ℤ), k ≤ 2 ^ f.precision ∧ f.emin ≤ e ∧ y = k * 2 ^ e

/-- The multiple of `10 ^ q` printed for `y`: of those read as `y` the nearer one. -/
def cut (y : ℚ) (q : ℤ) : Option ℤ :=
  if f.nearest (⌊y / 10 ^ q⌋ * 10 ^ q) = y then
    if f.nearest ((⌊y / 10 ^ q⌋ + 1) * 10 ^ q) = y then some (roundEven (y / 10 ^ q))
    else some ⌊y / 10 ^ q⌋
  else if f.nearest ((⌊y / 10 ^ q⌋ + 1) * 10 ^ q) = y then some (⌊y / 10 ^ q⌋ + 1)
  else none

/-- One digit more in each step; after the last one nothing is cut off. -/
def search (y : ℚ) : ℕ → ℤ → Decimal
  | 0, q => ⟨⌊y / 10 ^ q⌋, q⟩
  | n + 1, q =>
    match f.cut y q with
    | some c => ⟨c, q⟩
    | none => search y n (q - 1)

/-- The decimal with as few digits as it takes to be read back. -/
def shortest (y : ℚ) : Decimal :=
  if y = 0 then ⟨0, 0⟩
  else f.search y (Int.log 10 y + 1 - min f.emin 0).toNat (Int.log 10 y + 1)

variable {f}

@[simp] theorem nearest_zero : f.nearest 0 = 0 := by
  simp [nearest, roundEven]

theorem two_zpow_pos (e : ℤ) : (0 : ℚ) < 2 ^ e := zpow_pos (by norm_num) e

theorem emin_le_place (x : ℚ) : f.emin ≤ f.place x := le_max_left _ _

theorem place_mono (hx : 0 < x) (h : x ≤ y) : f.place x ≤ f.place y := by
  have hlog := Int.log_mono_right (b := 2) hx h
  unfold place
  omega

theorem div_place_lt (x : ℚ) : x / 2 ^ f.place x < 2 ^ f.precision := by
  have hlog : x < 2 ^ (Int.log 2 x + 1) := by
    exact_mod_cast Int.lt_zpow_succ_log_self (by norm_num) x
  have hpow : (2 : ℚ) ^ (Int.log 2 x + 1) ≤ 2 ^ ((f.precision : ℤ) + f.place x) := by
    apply zpow_le_zpow_right₀ (by norm_num)
    unfold place
    omega
  rw [div_lt_iff₀ (two_zpow_pos _), ← zpow_natCast, ← zpow_add₀ (by norm_num)]
  linarith

theorem nearest_eq_of_multiple {k : ℤ} (h : x = k * 2 ^ f.place x) : f.nearest x = x := by
  have hdiv : x / 2 ^ f.place x = k := by
    rw [div_eq_iff (two_zpow_pos _).ne']
    exact h
  rw [nearest, hdiv, roundEven_intCast, ← h]

theorem zpow_eq_mul {e e' : ℤ} (h : e' ≤ e) :
    (2 : ℚ) ^ e = ((2 ^ (e - e').toNat : ℤ) : ℚ) * 2 ^ e' := by
  push_cast
  rw [← zpow_natCast, ← zpow_add₀ (by norm_num)]
  congr 1
  omega

theorem nearest_of_holds (h : f.Holds y) : f.nearest y = y := by
  obtain ⟨k, e, hk, he, rfl⟩ := h
  obtain rfl | hpos := Nat.eq_zero_or_pos k
  · simp
  have hy : (0 : ℚ) < k * 2 ^ e := mul_pos (by exact_mod_cast hpos) (two_zpow_pos e)
  rcases Nat.lt_or_eq_of_le hk with hlt | heq
  · -- the number is below the power of two, and its last place is at most `e`
    have hlog : Int.log 2 ((k : ℚ) * 2 ^ e) < f.precision + e := by
      rw [← Int.lt_zpow_iff_log_lt (by norm_num) hy, zpow_add₀ (by norm_num)]
      have hcast : (k : ℚ) < 2 ^ f.precision := by exact_mod_cast hlt
      exact_mod_cast mul_lt_mul_of_pos_right hcast (two_zpow_pos e)
    have hplace : f.place (k * 2 ^ e) ≤ e := by
      unfold place
      omega
    apply nearest_eq_of_multiple (k := k * 2 ^ (e - f.place (k * 2 ^ e)).toNat)
    conv_lhs => rw [zpow_eq_mul hplace]
    push_cast
    ring
  · have hvalue : (k : ℚ) * 2 ^ e = 2 ^ (f.precision + e) := by
      rw [heq, zpow_add₀ (by norm_num)]
      push_cast
      rfl
    have hlog : Int.log 2 ((2 : ℚ) ^ (f.precision + e)) = f.precision + e := by
      exact_mod_cast Int.log_zpow (R := ℚ) (b := 2) (by norm_num) (f.precision + e)
    have hp := f.pos
    have hplace : f.place (2 ^ (f.precision + e)) = e + 1 := by
      unfold place
      omega
    rw [hvalue]
    apply nearest_eq_of_multiple (k := 2 ^ (f.precision - 1))
    rw [hplace]
    push_cast
    rw [← zpow_natCast, ← zpow_add₀ (by norm_num)]
    congr 1
    omega

theorem holds_nearest (hx : 0 ≤ x) : f.Holds (f.nearest x) := by
  have hlow : 0 ≤ roundEven (x / 2 ^ f.place x) := by
    apply le_roundEven
    have := two_zpow_pos (f.place x)
    positivity
  have hhigh : roundEven (x / 2 ^ f.place x) ≤ 2 ^ f.precision := by
    apply roundEven_le
    exact_mod_cast (div_place_lt x).le
  refine ⟨(roundEven (x / 2 ^ f.place x)).toNat, f.place x, ?_, emin_le_place x, ?_⟩
  · zify
    rw [Int.toNat_of_nonneg hlow]
    exact hhigh
  · have hcast : ((roundEven (x / 2 ^ f.place x)).toNat : ℚ) = roundEven (x / 2 ^ f.place x) := by
      exact_mod_cast Int.toNat_of_nonneg hlow
    rw [hcast, nearest]

theorem nearest_nonneg (hx : 0 ≤ x) : 0 ≤ f.nearest x := by
  obtain ⟨k, e, -, -, hvalue⟩ := holds_nearest (f := f) hx
  rw [hvalue]
  exact mul_nonneg (Nat.cast_nonneg k) (two_zpow_pos e).le

theorem nearest_le_zpow {e : ℤ} (he : f.place x ≤ e) (h : x ≤ 2 ^ e) : f.nearest x ≤ 2 ^ e := by
  have hdiv : x / 2 ^ f.place x ≤ ((2 ^ (e - f.place x).toNat : ℤ) : ℚ) := by
    rw [div_le_iff₀ (two_zpow_pos _), ← zpow_eq_mul he]
    exact h
  rw [nearest, zpow_eq_mul he]
  exact mul_le_mul_of_nonneg_right (by exact_mod_cast roundEven_le hdiv) (two_zpow_pos _).le

theorem zpow_le_nearest {e : ℤ} (he : f.place x ≤ e) (h : 2 ^ e ≤ x) : 2 ^ e ≤ f.nearest x := by
  have hdiv : ((2 ^ (e - f.place x).toNat : ℤ) : ℚ) ≤ x / 2 ^ f.place x := by
    rw [le_div_iff₀ (two_zpow_pos _), ← zpow_eq_mul he]
    exact h
  rw [nearest, zpow_eq_mul he]
  exact mul_le_mul_of_nonneg_right (by exact_mod_cast le_roundEven hdiv) (two_zpow_pos _).le

theorem zpow_log_between (hx : 0 < x) (hy : 0 < y) (h : f.place x < f.place y) :
    f.place y ≤ Int.log 2 y ∧ x < 2 ^ Int.log 2 y ∧ 2 ^ Int.log 2 y ≤ y := by
  have hp := f.pos
  have hlog : Int.log 2 x < Int.log 2 y := by
    unfold place at h
    omega
  refine ⟨?_, ?_, ?_⟩
  · have hmin := emin_le_place (f := f) x
    unfold place at h hmin ⊢
    omega
  · exact_mod_cast (Int.lt_zpow_iff_log_lt (by norm_num) hx).mpr hlog
  · exact_mod_cast Int.zpow_log_le_self (by norm_num) hy

theorem nearest_mono (hx : 0 ≤ x) (h : x ≤ y) : f.nearest x ≤ f.nearest y := by
  obtain rfl | hx := hx.eq_or_lt
  · rw [nearest_zero]
    exact nearest_nonneg h
  have hy : 0 < y := by linarith
  rcases (place_mono (f := f) hx h).eq_or_lt with heq | hlt
  · rw [nearest, nearest, heq]
    apply mul_le_mul_of_nonneg_right _ (two_zpow_pos _).le
    have hdiv : x / 2 ^ f.place y ≤ y / 2 ^ f.place y :=
      div_le_div_of_nonneg_right h (two_zpow_pos _).le
    exact_mod_cast roundEven_mono hdiv
  · obtain ⟨hplace, hbelow, habove⟩ := zpow_log_between hx hy hlt
    calc f.nearest x ≤ 2 ^ Int.log 2 y := nearest_le_zpow (by omega) hbelow.le
      _ ≤ f.nearest y := zpow_le_nearest hplace habove

theorem nearest_eq_of_between {z : ℚ} (hx : 0 ≤ x) (hxy : x ≤ y) (hyz : y ≤ z)
    (h : f.nearest x = f.nearest z) : f.nearest y = f.nearest z := by
  have hlow := nearest_mono (f := f) hx hxy
  have hhigh := nearest_mono (f := f) (hx.trans hxy) hyz
  linarith

theorem abs_nearest_sub_le (x : ℚ) : |f.nearest x - x| ≤ 2 ^ f.place x / 2 := by
  have hround := abs_roundEven_sub_le (x / 2 ^ f.place x)
  have hsub : f.nearest x - x = (roundEven (x / 2 ^ f.place x) - x / 2 ^ f.place x) *
      2 ^ f.place x := by
    rw [nearest, sub_mul, div_mul_cancel₀ _ (two_zpow_pos _).ne']
  rw [hsub, abs_mul, abs_of_pos (two_zpow_pos _)]
  linarith [mul_le_mul_of_nonneg_right hround (two_zpow_pos (f.place x)).le]

theorem zpow_place_le (hx : 0 < x) :
    2 ^ f.place x ≤ (2 : ℚ) ^ f.emin ∨ 2 ^ f.place x * 2 ^ (f.precision - 1) ≤ x := by
  have hp := f.pos
  by_cases hmin : f.place x = f.emin
  · left
    rw [hmin]
  · right
    have hlog : (2 : ℚ) ^ Int.log 2 x ≤ x := by
      exact_mod_cast Int.zpow_log_le_self (by norm_num) hx
    have hexp : f.place x + (f.precision - 1 : ℕ) = Int.log 2 x := by
      unfold place at hmin ⊢
      omega
    rwa [← zpow_natCast, ← zpow_add₀ (by norm_num), hexp]

/-! ## Printing -/

theorem ten_zpow_pos (q : ℤ) : (0 : ℚ) < 10 ^ q := zpow_pos (by norm_num) q

theorem ten_zpow_eq_mul {q r : ℤ} (h : q ≤ r) :
    (10 : ℚ) ^ r = ((10 ^ (r - q).toNat : ℤ) : ℚ) * 10 ^ q := by
  push_cast
  rw [← zpow_natCast, ← zpow_add₀ (by norm_num)]
  congr 1
  omega

theorem floor_mul_le (y : ℚ) (q : ℤ) : (⌊y / 10 ^ q⌋ : ℚ) * 10 ^ q ≤ y := by
  rw [← le_div_iff₀ (ten_zpow_pos q)]
  exact Int.floor_le _

theorem lt_floor_add_one_mul (y : ℚ) (q : ℤ) : y < (⌊y / 10 ^ q⌋ + 1) * 10 ^ q := by
  rw [← div_lt_iff₀ (ten_zpow_pos q)]
  exact Int.lt_floor_add_one _

theorem nearest_of_cut {q c : ℤ} (h : f.cut y q = some c) :
    f.nearest (c * 10 ^ q) = y ∧ ⌊y / 10 ^ q⌋ ≤ c ∧ c ≤ ⌊y / 10 ^ q⌋ + 1 := by
  unfold cut at h
  split at h
  · next hdown =>
    split at h
    · next hup =>
      obtain ⟨hlow, hhigh⟩ := floor_le_roundEven (y / 10 ^ q)
      obtain rfl := Option.some.inj h
      refine ⟨?_, hlow, hhigh⟩
      rcases hlow.eq_or_lt with heq | hlt
      · rwa [← heq]
      · rw [show roundEven (y / 10 ^ q) = ⌊y / 10 ^ q⌋ + 1 by omega]
        exact_mod_cast hup
    · obtain rfl := Option.some.inj h
      exact ⟨hdown, le_rfl, by omega⟩
  · split at h
    · next hup =>
      obtain rfl := Option.some.inj h
      exact ⟨by exact_mod_cast hup, by omega, le_rfl⟩
    · cases h

theorem cut_whole {q k : ℤ} (hy : f.Holds y) (h : y = k * 10 ^ q) : f.cut y q = some k := by
  have hdiv : y / 10 ^ q = k := by
    rw [div_eq_iff (ten_zpow_pos q).ne']
    exact h
  unfold cut
  rw [hdiv, Int.floor_intCast, roundEven_intCast, ← h, nearest_of_holds hy, if_pos rfl, ite_self]

/-- The two next to a number are the ones to look at. -/
theorem cut_ne_none {q : ℤ} {c : ℤ} (hy : f.Holds y) (hc : 0 ≤ c)
    (h : f.nearest (c * 10 ^ q) = y) : f.cut y q ≠ none := by
  have hself := nearest_of_holds hy
  have hq := ten_zpow_pos q
  have hpos : (0 : ℚ) ≤ c * 10 ^ q := mul_nonneg (by exact_mod_cast hc) hq.le
  rcases le_or_gt c ⌊y / 10 ^ q⌋ with hle | hgt
  · have hbetween : (c : ℚ) * 10 ^ q ≤ ⌊y / 10 ^ q⌋ * 10 ^ q :=
      mul_le_mul_of_nonneg_right (by exact_mod_cast hle) hq.le
    have hdown := nearest_eq_of_between (f := f) hpos hbetween (floor_mul_le y q)
      (h.trans hself.symm)
    rw [cut, if_pos (hdown.trans hself)]
    split <;> simp
  · have hbetween : ((⌊y / 10 ^ q⌋ : ℚ) + 1) * 10 ^ q ≤ c * 10 ^ q :=
      mul_le_mul_of_nonneg_right (by exact_mod_cast hgt) hq.le
    have hy0 : 0 ≤ y := by
      rw [← h]
      exact nearest_nonneg hpos
    have hup := nearest_eq_of_between (f := f) hy0 (lt_floor_add_one_mul y q).le hbetween
      (hself.trans h.symm)
    unfold cut
    split
    · split <;> simp
    · rw [if_pos (hup.trans h)]
      simp

/-- A decimal that is read as the number, whole if that is, with no more digits than any. -/
structure Found (f : Format) (y : ℚ) (q : ℤ) (d : Decimal) : Prop where
  read : f.nearest d.toRat = y
  low : ⌊y / 10 ^ d.exp⌋ ≤ d.value
  high : d.value ≤ ⌊y / 10 ^ d.exp⌋ + 1
  whole : ∀ k : ℤ, y = k * 10 ^ d.exp → d.value = k
  fewest : ∀ (r c : ℤ), r ≤ q → 0 ≤ c → f.nearest (c * 10 ^ r) = y → r ≤ d.exp

theorem found_search (hy : f.Holds y) (n : ℕ) (q : ℤ) (hend : ∃ k : ℤ, y = k * 10 ^ (q - n)) :
    f.Found y q (f.search y n q) := by
  induction n generalizing q with
  | zero =>
    obtain ⟨k, hk⟩ := hend
    rw [Nat.cast_zero, sub_zero] at hk
    have hfloor : ⌊y / 10 ^ q⌋ = k := by
      rw [hk, mul_div_cancel_right₀ _ (ten_zpow_pos q).ne', Int.floor_intCast]
    have hself : f.nearest (k * 10 ^ q) = y := by
      rw [← hk]
      exact nearest_of_holds hy
    refine ⟨?_, le_rfl, by dsimp only [search]; omega, ?_, fun r c hr _ _ => hr⟩
    · rwa [search, hfloor]
    · intro k' hk'
      have hdiv : y / 10 ^ q = k' := by
        rw [div_eq_iff (ten_zpow_pos q).ne']
        exact hk'
      rw [search, hdiv, Int.floor_intCast]
  | succ n ih =>
    rw [search]
    split
    · next c hcut =>
      obtain ⟨hread, hlow, hhigh⟩ := nearest_of_cut hcut
      refine ⟨hread, hlow, hhigh, ?_, fun r c hr _ _ => hr⟩
      intro k hk
      rw [cut_whole hy hk] at hcut
      exact (Option.some.inj hcut).symm
    · next hcut =>
      have hfound := ih (q - 1) (by
        obtain ⟨k, hk⟩ := hend
        refine ⟨k, ?_⟩
        rw [hk]
        congr 2
        push_cast
        ring)
      refine ⟨hfound.read, hfound.low, hfound.high, hfound.whole, ?_⟩
      intro r c hr hc hread
      have hne : r ≠ q := by
        rintro rfl
        exact cut_ne_none hy hc hread hcut
      exact hfound.fewest r c (by omega) hc hread

theorem min_emin_le_log (hy : f.Holds y) (hpos : 0 < y) : min f.emin 0 ≤ Int.log 10 y := by
  obtain ⟨k, e, -, he, hvalue⟩ := hy
  have hk : (1 : ℚ) ≤ k := by
    have hne : k ≠ 0 := by
      rintro rfl
      simp [hvalue] at hpos
    exact_mod_cast Nat.one_le_iff_ne_zero.mpr hne
  rw [← Int.zpow_le_iff_le_log (by norm_num) hpos]
  obtain ⟨n, hn⟩ := Int.eq_ofNat_of_zero_le (show 0 ≤ -min f.emin 0 by omega)
  have hmin : min f.emin 0 = -(n : ℤ) := by omega
  have hpow : (10 : ℚ) ^ (-(n : ℤ)) ≤ 2 ^ (-(n : ℤ)) := by
    rw [zpow_neg, zpow_neg, zpow_natCast, zpow_natCast]
    exact inv_anti₀ (by positivity) (pow_le_pow_left₀ (by norm_num) (by norm_num) n)
  have hstep : (2 : ℚ) ^ (-(n : ℤ)) ≤ 2 ^ e :=
    zpow_le_zpow_right₀ (by norm_num) (by omega)
  rw [hmin, hvalue]
  push_cast
  nlinarith [two_zpow_pos e]

/-- The number is a multiple of the power of ten at which the search ends. -/
theorem multiple_of_min (hy : f.Holds y) : ∃ k : ℤ, y = k * 10 ^ min f.emin 0 := by
  obtain ⟨k, e, -, he, rfl⟩ := hy
  obtain ⟨n, hn⟩ := Int.eq_ofNat_of_zero_le (show 0 ≤ -min f.emin 0 by omega)
  have hmin : min f.emin 0 = -(n : ℤ) := by omega
  refine ⟨k * 2 ^ (e + n).toNat * 5 ^ n, ?_⟩
  have htwo : (2 : ℚ) ^ e = 2 ^ (e + n).toNat * 2 ^ (-(n : ℤ)) := by
    rw [← zpow_natCast, ← zpow_add₀ (by norm_num)]
    congr 1
    omega
  have hten : (10 : ℚ) ^ (-(n : ℤ)) * 5 ^ n = 2 ^ (-(n : ℤ)) := by
    rw [zpow_neg, zpow_neg, zpow_natCast, zpow_natCast, show (10 : ℚ) = 2 * 5 by norm_num, mul_pow]
    field_simp
  rw [hmin, htwo, ← hten]
  push_cast
  ring

theorem found_shortest (hy : f.Holds y) (hpos : 0 < y) :
    f.Found y (Int.log 10 y + 1) (f.shortest y) := by
  have hlog := min_emin_le_log hy hpos
  rw [shortest, if_neg hpos.ne']
  apply found_search hy
  rw [show Int.log 10 y + 1 - ((Int.log 10 y + 1 - min f.emin 0).toNat : ℤ) = min f.emin 0 by omega]
  exact multiple_of_min hy

@[simp] theorem shortest_zero : f.shortest 0 = ⟨0, 0⟩ := by
  simp [shortest]

theorem Holds.nonneg (hy : f.Holds y) : 0 ≤ y := by
  obtain ⟨k, e, -, -, rfl⟩ := hy
  exact mul_nonneg (Nat.cast_nonneg k) (two_zpow_pos e).le

/-- What was printed is read back. -/
theorem nearest_shortest (hy : f.Holds y) : f.nearest (f.shortest y).toRat = y := by
  obtain rfl | hpos := hy.nonneg.eq_or_lt
  · simp [Decimal.toRat]
  · exact (found_shortest hy hpos).read

theorem shortest_nonneg (hy : f.Holds y) : 0 ≤ (f.shortest y).value := by
  obtain rfl | hpos := hy.nonneg.eq_or_lt
  · simp
  · refine le_trans ?_ (found_shortest hy hpos).low
    have := ten_zpow_pos (f.shortest y).exp
    exact Int.floor_nonneg.mpr (by positivity)

theorem shortest_exp_nonneg {n : ℕ} (hn : f.Holds n) : 0 ≤ (f.shortest n).exp := by
  obtain rfl | hpos := Nat.eq_zero_or_pos n
  · simp
  · have hfound := found_shortest hn (by exact_mod_cast hpos)
    refine hfound.fewest 0 n ?_ (by omega) ?_
    · rw [Int.log_natCast]
      omega
    · simpa using nearest_of_holds hn

theorem toRat_eq_natCast {d : Decimal} (hvalue : 0 ≤ d.value) (hexp : 0 ≤ d.exp) :
    d.toRat = ((d.value.toNat * 10 ^ d.exp.toNat : ℕ) : ℚ) := by
  obtain ⟨c, hc⟩ := Int.eq_ofNat_of_zero_le hvalue
  obtain ⟨q, hq⟩ := Int.eq_ofNat_of_zero_le hexp
  rw [Decimal.toRat, hc, hq]
  simp

theorem nearest_natCast (n : ℕ) : ∃ m : ℕ, f.nearest n = m := by
  rcases le_or_gt 0 (f.place n) with hplace | hplace
  · obtain ⟨e, he⟩ := Int.eq_ofNat_of_zero_le hplace
    have hround : 0 ≤ roundEven ((n : ℚ) / 2 ^ f.place n) := by
      apply le_roundEven
      have := two_zpow_pos (f.place n)
      positivity
    obtain ⟨k, hk⟩ := Int.eq_ofNat_of_zero_le hround
    refine ⟨k * 2 ^ e, ?_⟩
    rw [nearest, hk, he]
    push_cast
    rfl
  · -- places behind the point are not needed
    refine ⟨n, nearest_eq_of_multiple (k := n * 2 ^ (0 - f.place n).toNat) ?_⟩
    have hone := zpow_eq_mul (e := 0) hplace.le
    rw [zpow_zero] at hone
    rw [Int.cast_mul, mul_assoc, ← hone]
    simp

theorem place_le_place_nearest (hx : 0 < x) (hnear : 0 < f.nearest x) :
    f.place x ≤ f.place (f.nearest x) := by
  rcases le_or_gt x (f.nearest x) with hle | hgt
  · exact place_mono hx hle
  · by_contra hplace
    obtain ⟨hlog, hbelow, habove⟩ := zpow_log_between hnear hx (not_le.mp hplace)
    exact absurd (zpow_le_nearest hlog habove) (not_le.mpr hbelow)

theorem nearest_bounds (hx : 0 < x) (hmin : 2 ^ f.emin ≤ x) :
    x / 2 ≤ f.nearest x ∧ f.nearest x ≤ 2 * x := by
  have herr := abs_nearest_sub_le (f := f) x
  have hplace : (2 : ℚ) ^ f.place x ≤ x := by
    rcases zpow_place_le (f := f) hx with h | h
    · exact h.trans hmin
    · have hone : (1 : ℚ) ≤ 2 ^ (f.precision - 1) := one_le_pow₀ (by norm_num)
      nlinarith [two_zpow_pos (f.place x)]
  rw [abs_le] at herr
  constructor <;> linarith

theorem abs_nearest_sub_le_place (hx : 0 < x) (hnear : 0 < f.nearest x) :
    |f.nearest x - x| ≤ 2 ^ f.place (f.nearest x) / 2 := by
  have herr := abs_nearest_sub_le (f := f) x
  have hpow : (2 : ℚ) ^ f.place x ≤ 2 ^ f.place (f.nearest x) :=
    zpow_le_zpow_right₀ (by norm_num) (place_le_place_nearest hx hnear)
  linarith

theorem zpow_place_lt {u : ℚ} {c : ℤ} (hx : 0 < x) (hu : 0 < u) (hmin : 2 ^ f.emin < u)
    (hfew : c * 4 < 2 ^ f.precision) (hle : x ≤ 2 * (c * u)) : 2 ^ f.place x < u := by
  rcases zpow_place_le (f := f) hx with hsmall | hbig
  · linarith
  · obtain ⟨p, hprec⟩ : ∃ p, f.precision = p + 1 := ⟨f.precision - 1, by have := f.pos; omega⟩
    have hfew' : (c : ℚ) * 2 < 2 ^ p := by
      rw [hprec, pow_succ] at hfew
      exact_mod_cast show c * 2 < 2 ^ p by omega
    rw [hprec, Nat.add_sub_cancel] at hbig
    have hpow : (0 : ℚ) < 2 ^ p := by positivity
    by_contra hge
    nlinarith [mul_le_mul_of_nonneg_right (not_lt.mp hge) hpow.le,
      mul_lt_mul_of_pos_right hfew' hu]

/-- The format tells multiples of a power of ten apart, while they have few digits. -/
theorem eq_of_nearest_eq {a c q : ℤ} (ha : 0 ≤ a) (hc : 0 < c)
    (hfew : c * 4 < 2 ^ f.precision) (hmin : (2 : ℚ) ^ f.emin < 10 ^ q)
    (h : f.nearest (a * 10 ^ q) = f.nearest (c * 10 ^ q)) : a = c := by
  have hq := ten_zpow_pos q
  have hcq : (10 : ℚ) ^ q ≤ c * 10 ^ q := by
    have : (1 : ℚ) ≤ c := by exact_mod_cast hc
    nlinarith
  have hcpos : (0 : ℚ) < c * 10 ^ q := by linarith
  obtain ⟨hlow, hhigh⟩ := nearest_bounds (f := f) hcpos (by linarith)
  have hnear : 0 < f.nearest (c * 10 ^ q) := by linarith
  have hapos : (0 : ℚ) < a * 10 ^ q := by
    rcases ha.eq_or_lt with hzero | hlt
    · rw [← hzero, Int.cast_zero, zero_mul, nearest_zero] at h
      linarith
    · exact mul_pos (by exact_mod_cast hlt) hq
  have hlast := zpow_place_lt hnear hq hmin hfew hhigh
  -- both are less than half of the unit away from their number
  have hsub : |((a : ℚ) - c) * 10 ^ q| < 10 ^ q := by
    have hda := abs_nearest_sub_le_place (f := f) hapos (by rwa [h])
    have hdc := abs_nearest_sub_le_place (f := f) hcpos hnear
    rw [h] at hda
    rw [abs_le] at hda hdc
    rw [abs_lt]
    constructor <;> linarith
  rw [abs_mul, abs_of_pos hq, mul_lt_iff_lt_one_left hq] at hsub
  have habs : |a - c| < 1 := by exact_mod_cast hsub
  rw [Int.abs_lt_one_iff] at habs
  omega

/-- A decimal with few digits that was read is printed as it was. -/
theorem shortest_nearest {c q : ℤ} (hc : 0 < c) (hfew : c * 4 < 2 ^ f.precision)
    (hmin : (2 : ℚ) ^ f.emin < 10 ^ q) :
    (f.shortest (f.nearest (c * 10 ^ q))).toRat = c * 10 ^ q := by
  have hq := ten_zpow_pos q
  have hcq : (10 : ℚ) ^ q ≤ c * 10 ^ q := by
    have : (1 : ℚ) ≤ c := by exact_mod_cast hc
    nlinarith
  have hholds := holds_nearest (f := f) (x := c * 10 ^ q) (by linarith)
  obtain ⟨hlow, -⟩ := nearest_bounds (f := f) (x := c * 10 ^ q) (by linarith) (by linarith)
  generalize hz : f.nearest (c * 10 ^ q) = z at hholds hlow
  have hpos : 0 < z := by linarith
  have hlog : q - 1 ≤ Int.log 10 z := by
    rw [← Int.zpow_le_iff_le_log (by norm_num) hpos, zpow_sub_one₀ (by norm_num)]
    push_cast
    linarith
  have hfound := found_shortest hholds hpos
  have hexp := hfound.fewest q c (by omega) hc.le hz
  have hvalue : (f.shortest z).toRat =
      ((f.shortest z).value * 10 ^ ((f.shortest z).exp - q).toNat : ℤ) * 10 ^ q := by
    rw [Decimal.toRat, ten_zpow_eq_mul hexp]
    push_cast
    ring
  have hread := hfound.read
  rw [hvalue] at hread ⊢
  rw [eq_of_nearest_eq (mul_nonneg (shortest_nonneg hholds) (by positivity)) hc hfew hmin
    (hread.trans hz.symm)]

theorem nearest_eq_of_near {k : ℤ} (hy : y = k * 2 ^ f.place x)
    (hnear : |x - y| < 2 ^ f.place x / 2) : f.nearest x = y := by
  have hdiv : x / 2 ^ f.place x - k = (x - y) / 2 ^ f.place x := by
    rw [sub_div, hy, mul_div_cancel_right₀ _ (two_zpow_pos _).ne']
  rw [nearest, roundEven_eq (k := k), hy]
  rw [hdiv, abs_div, abs_of_pos (two_zpow_pos _), div_lt_iff₀ (two_zpow_pos _)]
  linarith

theorem nearest_of_near_below (hx : 0 < x) (hy : f.Holds y) (hle : x ≤ y)
    (hnear : y - x < 2 ^ f.place y / 4) : f.nearest x = y := by
  have hmono := place_mono (f := f) hx hle
  have hplace : f.place y ≤ f.place x + 1 := by
    rcases hmono.eq_or_lt with heq | hlt
    · omega
    · obtain ⟨hlog, -, habove⟩ := zpow_log_between hx (hx.trans_le hle) hlt
      have hlast : (2 : ℚ) ^ f.place y ≤ 2 ^ Int.log 2 y :=
        zpow_le_zpow_right₀ (by norm_num) hlog
      have hhalf : (2 : ℚ) ^ (Int.log 2 y - 1) ≤ x := by
        rw [zpow_sub_one₀ (by norm_num)]
        linarith
      have hlogx : Int.log 2 y - 1 ≤ Int.log 2 x :=
        (Int.zpow_le_iff_le_log (by norm_num) hx).mp (by exact_mod_cast hhalf)
      unfold place
      omega
  have hpow : (2 : ℚ) ^ f.place y ≤ 2 ^ f.place x * 2 := by
    rw [← zpow_add_one₀ (by norm_num)]
    exact zpow_le_zpow_right₀ (by norm_num) hplace
  have hmultiple : y = (roundEven (y / 2 ^ f.place y) * 2 ^ (f.place y - f.place x).toNat : ℤ) *
      2 ^ f.place x := by
    rw [Int.cast_mul, mul_assoc, ← zpow_eq_mul hmono]
    exact (nearest_of_holds hy).symm
  refine nearest_eq_of_near hmultiple ?_
  rw [abs_sub_comm, abs_of_nonneg (by linarith)]
  linarith

/-- So many digits are enough. -/
theorem shortest_few {k : ℕ} (hk : 2 ^ (f.precision + 2) ≤ 10 ^ k) (hy : f.Holds y)
    (hpos : 0 < y) : Int.log 10 y - k ≤ (f.shortest y).exp ∧
      (f.shortest y).value ≤ 10 ^ (k + 1) := by
  have hfound := found_shortest hy hpos
  have hlow : (10 : ℚ) ^ Int.log 10 y ≤ y := by
    exact_mod_cast Int.zpow_log_le_self (by norm_num) hpos
  have hhigh : y < 10 ^ (Int.log 10 y + 1) := by
    exact_mod_cast Int.lt_zpow_succ_log_self (by norm_num) y
  have hexp : Int.log 10 y - k ≤ (f.shortest y).exp := by
    have hunit : (10 : ℚ) ^ (Int.log 10 y - k) * 10 ^ k ≤ y := by
      rwa [← zpow_natCast, ← zpow_add₀ (by norm_num), sub_add_cancel]
    have hdigits : (1 : ℚ) ≤ 10 ^ k := one_le_pow₀ (by norm_num)
    have hq := ten_zpow_pos (Int.log 10 y - k)
    have hfloor : 1 ≤ ⌊y / 10 ^ (Int.log 10 y - k)⌋ := by
      rw [Int.le_floor, Int.cast_one, le_div_iff₀ hq]
      nlinarith
    refine hfound.fewest _ ⌊y / 10 ^ (Int.log 10 y - k)⌋ (by omega) (by omega) ?_
    apply nearest_of_near_below _ hy (floor_mul_le y _)
    · -- the unit is less than a quarter of the last place
      have hbelow := lt_floor_add_one_mul y (Int.log 10 y - k)
      have hplace := div_place_lt (f := f) y
      rw [div_lt_iff₀ (two_zpow_pos _)] at hplace
      have hk' : (2 : ℚ) ^ f.precision * 4 ≤ 10 ^ k := by
        have : (2 : ℚ) ^ (f.precision + 2) ≤ 10 ^ k := by exact_mod_cast hk
        rwa [pow_add, show (2 : ℚ) ^ 2 = 4 by norm_num] at this
      have hquarter : (10 : ℚ) ^ (Int.log 10 y - k) ≤ 2 ^ f.place y / 4 := by
        have hpow : (0 : ℚ) < 2 ^ f.precision := by positivity
        by_contra hlt
        nlinarith [mul_le_mul_of_nonneg_left hk' hq.le,
          mul_lt_mul_of_pos_right (not_le.mp hlt) hpow]
      linarith
    · exact mul_pos (by exact_mod_cast hfloor) hq
  refine ⟨hexp, ?_⟩
  have hq := ten_zpow_pos (f.shortest y).exp
  have hfloor : ⌊y / 10 ^ (f.shortest y).exp⌋ < 10 ^ (k + 1) := by
    rw [Int.floor_lt, div_lt_iff₀ hq]
    push_cast
    rw [← zpow_natCast, ← zpow_add₀ (by norm_num)]
    refine hhigh.trans_le (zpow_le_zpow_right₀ (by norm_num) ?_)
    push_cast
    omega
  have := hfound.high
  omega

/-- What a number of the smaller format is printed as passes through the larger one. -/
theorem shortest_nearest_shortest (hy : binary32.Holds y) :
    (binary64.shortest (binary64.nearest (binary32.shortest y).toRat)).toRat =
      (binary32.shortest y).toRat := by
  obtain rfl | hpos := hy.nonneg.eq_or_lt
  · simp [Decimal.toRat]
  obtain ⟨hexp, hvalue⟩ := shortest_few (k := 8) (by decide) hy hpos
  have hlog : -149 ≤ Int.log 10 y := min_emin_le_log hy hpos
  have hread := nearest_shortest hy
  rw [Decimal.toRat] at hread ⊢
  apply shortest_nearest
  · have hnonneg := shortest_nonneg hy
    have hne : (binary32.shortest y).value ≠ 0 := by
      intro hzero
      rw [hzero, Int.cast_zero, zero_mul, nearest_zero] at hread
      exact hpos.ne hread
    omega
  · norm_num [binary64] at hvalue ⊢
    omega
  · calc (2 : ℚ) ^ (-1074 : ℤ) < 2 ^ (4 * -157 : ℤ) :=
          zpow_lt_zpow_right₀ (by norm_num) (by norm_num)
      _ ≤ 10 ^ (-157 : ℤ) := by
          rw [zpow_mul, zpow_neg, zpow_neg]
          refine inv_anti₀ (by positivity) ?_
          exact pow_le_pow_left₀ (by norm_num) (by norm_num) 157
      _ ≤ 10 ^ (binary32.shortest y).exp := zpow_le_zpow_right₀ (by norm_num) (by omega)

end Format

end Binary
