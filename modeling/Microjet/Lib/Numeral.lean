import Mathlib.Data.List.Basic
import Mathlib.Data.Nat.Digits.Lemmas

/-!
# Numerals of a fixed width

Texts of one width are ordered as the numbers are (`fixed_lt_fixed`), and the text of a number
that is made of two is the one after the other (`fixed_append`).
-/

namespace Numeral

variable {α : Type} {digit : Nat → α} {base : Nat}

/-- The last digits of a number, the first of them in front. -/
def fixed (digit : Nat → α) (base : Nat) : Nat → Nat → List α
  | 0, _ => []
  | width + 1, n => digit (n / base ^ width % base) :: fixed digit base width n

@[simp] theorem length_fixed (width n : Nat) : (fixed digit base width n).length = width := by
  induction width with
  | zero => rfl
  | succ width ih => rw [fixed, List.length_cons, ih]

theorem mem_fixed (hbase : 0 < base) {a : α} {width n : Nat} (h : a ∈ fixed digit base width n) :
    ∃ d < base, a = digit d := by
  induction width with
  | zero => cases h
  | succ width ih =>
    rcases List.mem_cons.mp h with rfl | h
    · exact ⟨_, Nat.mod_lt _ hbase, rfl⟩
    · exact ih h

theorem fixed_add_mul (hbase : 0 < base) {width k : Nat} (hk : width ≤ k) (n m : Nat) :
    fixed digit base width (n * base ^ k + m) = fixed digit base width m := by
  induction width with
  | zero => rfl
  | succ width ih =>
    obtain ⟨j, rfl⟩ := Nat.exists_eq_add_of_le hk
    have hpos : 0 < base ^ width := Nat.pow_pos hbase
    have hsplit : n * base ^ (width + 1 + j) + m = m + base * (n * base ^ j) * base ^ width := by
      rw [Nat.pow_add, Nat.pow_succ]
      ring
    rw [fixed, fixed, ih (by omega), hsplit, Nat.add_mul_div_right _ _ hpos,
      Nat.add_mul_mod_self_left]

theorem fixed_append (hbase : 0 < base) (width k n : Nat) {m : Nat} (hm : m < base ^ k) :
    fixed digit base (width + k) (n * base ^ k + m) =
      fixed digit base width n ++ fixed digit base k m := by
  induction width with
  | zero =>
    rw [Nat.zero_add]
    exact fixed_add_mul hbase (Nat.le_refl k) n m
  | succ width ih =>
    have hpos : 0 < base ^ k := Nat.pow_pos hbase
    have hdiv : (n * base ^ k + m) / base ^ (width + k) = n / base ^ width := by
      rw [Nat.add_comm width, Nat.pow_add, ← Nat.div_div_eq_div_mul, Nat.add_comm,
        Nat.add_mul_div_right _ _ hpos, Nat.div_eq_of_lt hm, Nat.zero_add]
    rw [Nat.add_right_comm, fixed, ih, hdiv]
    rfl

section Order

variable [LT α]

/-- The order of the digits decides, from the front. -/
theorem fixed_lt_fixed_mod (hbase : 0 < base)
    (hdigit : ∀ c d, c < base → d < base → (digit c < digit d ↔ c < d))
    (hinj : ∀ c d, c < base → d < base → digit c = digit d → c = d) (width n m : Nat) :
    fixed digit base width n < fixed digit base width m ↔
      n % base ^ width < m % base ^ width := by
  induction width with
  | zero => simp [fixed, Nat.mod_one]
  | succ width ih =>
    have hlt := Nat.mod_lt (n / base ^ width) hbase
    have hlt' := Nat.mod_lt (m / base ^ width) hbase
    have hr := Nat.mod_lt n (Nat.pow_pos (n := width) hbase)
    have hr' := Nat.mod_lt m (Nat.pow_pos (n := width) hbase)
    rw [fixed, fixed, List.cons_lt_cons_iff, ih, hdigit _ _ hlt hlt', Nat.mod_pow_succ,
      Nat.mod_pow_succ]
    generalize n / base ^ width % base = q at *
    generalize m / base ^ width % base = q' at *
    generalize n % base ^ width = r at *
    generalize m % base ^ width = r' at *
    rcases Nat.lt_trichotomy q q' with hq | rfl | hq
    · refine iff_of_true (.inl hq) ?_
      have hmul : base ^ width * (q + 1) ≤ base ^ width * q' := Nat.mul_le_mul_left _ hq
      rw [Nat.mul_succ] at hmul
      omega
    · simp
    · refine iff_of_false ?_ ?_
      · rintro (h | ⟨h, -⟩)
        · omega
        · have := hinj _ _ hlt hlt' h
          omega
      · have hmul : base ^ width * (q' + 1) ≤ base ^ width * q := Nat.mul_le_mul_left _ hq
        rw [Nat.mul_succ] at hmul
        omega

end Order

/-- The number of a text. -/
def read (base : Nat) (value : α → Nat) (text : List α) : Nat :=
  text.foldl (fun n a => n * base + value a) 0

theorem read_fixed {value : α → Nat} (hbase : 0 < base)
    (hvalue : ∀ d < base, value (digit d) = d) (width n : Nat) (hn : n < base ^ width) :
    read base value (fixed digit base width n) = n := by
  have hfold (width : Nat) : ∀ acc, (fixed digit base width n).foldl
      (fun n a => n * base + value a) acc = acc * base ^ width + n % base ^ width := by
    induction width with
    | zero => simp [fixed, Nat.mod_one]
    | succ width ih =>
      intro acc
      rw [fixed, List.foldl_cons, ih, hvalue _ (Nat.mod_lt _ hbase), Nat.mod_pow_succ,
        Nat.pow_succ]
      ring
  rw [read, hfold, Nat.zero_mul, Nat.zero_add, Nat.mod_eq_of_lt hn]

end Numeral
