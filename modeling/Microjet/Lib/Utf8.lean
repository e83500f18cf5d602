import Mathlib.Data.List.Basic

/-!
# Coercion to valid UTF-8

The replacement character is put for every byte that does not belong to the encoding of a
character. A string stays as it is exactly when there is no such byte (`coerce_eq_iff`).
-/

namespace Utf8

/-- A continuation byte. -/
def cont (b : UInt8) : Bool := 0x80 ≤ b && b ≤ 0xBF

/-- The number of bytes of the character at the head, or 0 when there is none. -/
def runeWidth : List UInt8 → Nat
  | [] => 0
  | b :: rest =>
    let c (i : Nat) : UInt8 := rest.getD i 0
    if b < 0x80 then 1
    else if 0xC2 ≤ b && b ≤ 0xDF then if cont (c 0) then 2 else 0
    else if b = 0xE0 then if 0xA0 ≤ c 0 && c 0 ≤ 0xBF && cont (c 1) then 3 else 0
    else if b = 0xED then if 0x80 ≤ c 0 && c 0 ≤ 0x9F && cont (c 1) then 3 else 0
    else if 0xE1 ≤ b && b ≤ 0xEF then if cont (c 0) && cont (c 1) then 3 else 0
    else if b = 0xF0 then
      if 0x90 ≤ c 0 && c 0 ≤ 0xBF && cont (c 1) && cont (c 2) then 4 else 0
    else if 0xF1 ≤ b && b ≤ 0xF3 then
      if cont (c 0) && cont (c 1) && cont (c 2) then 4 else 0
    else if b = 0xF4 then
      if 0x80 ≤ c 0 && c 0 ≤ 0x8F && cont (c 1) && cont (c 2) then 4 else 0
    else 0

/-- `coerce`, inside a character of which `k` bytes are still to come. -/
def coerceFrom : Nat → List UInt8 → List UInt8
  | _, [] => []
  | k + 1, b :: rest => b :: coerceFrom k rest
  | 0, b :: rest =>
    match runeWidth (b :: rest) with
    | 0 => 0xEF :: 0xBF :: 0xBD :: coerceFrom 0 rest
    | w + 1 => b :: coerceFrom w rest

/-- The string with U+FFFD for every byte that is not part of a character. -/
def coerce (s : List UInt8) : List UInt8 := coerceFrom 0 s

/-- After `k` more bytes of a character. -/
def validFrom : Nat → List UInt8 → Bool
  | _, [] => true
  | k + 1, _ :: rest => validFrom k rest
  | 0, b :: rest =>
    match runeWidth (b :: rest) with
    | 0 => false
    | w + 1 => validFrom w rest

/-- `utf8.Valid` -/
def valid (s : List UInt8) : Bool := validFrom 0 s

/-- After `k` more bytes of a character. -/
def countFrom : Nat → List UInt8 → Nat
  | _, [] => 0
  | k + 1, _ :: rest => countFrom k rest
  | 0, b :: rest => countFrom (runeWidth (b :: rest) - 1) rest + 1

/-- The number of characters, where a byte that is not part of one counts as one. -/
def count (s : List UInt8) : Nat := countFrom 0 s

/-- After `k` more bytes of a character. -/
def takeFrom : Nat → Nat → List UInt8 → List UInt8
  | _, _, [] => []
  | k + 1, n, b :: rest => b :: takeFrom k n rest
  | 0, 0, _ :: _ => []
  | 0, n + 1, b :: rest => b :: takeFrom (runeWidth (b :: rest) - 1) n rest

/-- The first `n` characters. -/
def take (n : Nat) (s : List UInt8) : List UInt8 := takeFrom 0 n s

variable {b : UInt8}

theorem runeWidth_ascii {rest : List UInt8} (hb : b < 0x80) :
    runeWidth (b :: rest) = 1 := by
  simp [runeWidth, hb]

theorem high_of_cont (h : cont b = true) : 0x80 ≤ b := by
  rw [cont, Bool.and_eq_true, decide_eq_true_eq] at h
  exact h.1

theorem of_lt_ite {t : Bool} {w i : Nat} (h : i + 1 < if t then w else 0) :
    t = true ∧ i + 1 < w := by
  split at h
  · next ht => exact ⟨ht, h⟩
  · omega

theorem high_of_lt_runeWidth {rest : List UInt8} {i : Nat}
    (hi : i + 1 < runeWidth (b :: rest)) : 0x80 ≤ rest.getD i 0 := by
  have hfirst {lo hi : UInt8} (hlo : 0x80 ≤ lo)
      (ht : (decide (lo ≤ rest.getD 0 0) && decide (rest.getD 0 0 ≤ hi)) = true) :
      0x80 ≤ rest.getD 0 0 := by
    rw [Bool.and_eq_true, decide_eq_true_eq] at ht
    exact UInt8.le_trans hlo ht.1
  -- two, three and four bytes, by what is asked of the first that follows
  have htwo (ht : cont (rest.getD 0 0) = true) (hw : i + 1 < 2) : 0x80 ≤ rest.getD i 0 := by
    obtain rfl : i = 0 := by omega
    exact high_of_cont ht
  have hthree {lo hi : UInt8} (hlo : 0x80 ≤ lo)
      (ht : ((decide (lo ≤ rest.getD 0 0) && decide (rest.getD 0 0 ≤ hi)) &&
        cont (rest.getD 1 0)) = true) (hw : i + 1 < 3) : 0x80 ≤ rest.getD i 0 := by
    rw [Bool.and_eq_true] at ht
    obtain rfl | rfl : i = 0 ∨ i = 1 := by omega
    · exact hfirst hlo ht.1
    · exact high_of_cont ht.2
  have hfour {lo hi : UInt8} (hlo : 0x80 ≤ lo)
      (ht : ((decide (lo ≤ rest.getD 0 0) && decide (rest.getD 0 0 ≤ hi)) &&
        cont (rest.getD 1 0) && cont (rest.getD 2 0)) = true) (hw : i + 1 < 4) :
      0x80 ≤ rest.getD i 0 := by
    rw [Bool.and_eq_true] at ht
    rcases Nat.lt_or_ge (i + 1) 3 with hlt | hge
    · exact hthree hlo ht.1 hlt
    · obtain rfl : i = 2 := by omega
      exact high_of_cont ht.2
  simp only [runeWidth] at hi
  split at hi
  · omega
  split at hi
  · exact htwo (of_lt_ite hi).1 (of_lt_ite hi).2
  split at hi
  · exact hthree (by decide) (of_lt_ite hi).1 (of_lt_ite hi).2
  split at hi
  · exact hthree (by decide) (of_lt_ite hi).1 (of_lt_ite hi).2
  split at hi
  · exact hthree (show (0x80 : UInt8) ≤ 0x80 by decide) (of_lt_ite hi).1 (of_lt_ite hi).2
  split at hi
  · exact hfour (by decide) (of_lt_ite hi).1 (of_lt_ite hi).2
  split at hi
  · exact hfour (show (0x80 : UInt8) ≤ 0x80 by decide) (of_lt_ite hi).1 (of_lt_ite hi).2
  split at hi
  · exact hfour (by decide) (of_lt_ite hi).1 (of_lt_ite hi).2
  · omega

theorem length_le_coerceFrom (k : Nat) (s : List UInt8) :
    s.length ≤ (coerceFrom k s).length := by
  induction s generalizing k with
  | nil => exact Nat.zero_le _
  | cons b rest ih =>
    cases k with
    | succ k => exact Nat.succ_le_succ (ih k)
    | zero =>
      rw [coerceFrom]
      split
      · have := ih 0
        simp only [List.length_cons]
        omega
      · next w _ => exact Nat.succ_le_succ (ih w)

theorem coerceFrom_eq_iff (k : Nat) (s : List UInt8) :
    coerceFrom k s = s ↔ validFrom k s = true := by
  induction s generalizing k with
  | nil => cases k <;> simp [coerceFrom, validFrom]
  | cons b rest ih =>
    cases k with
    | succ k => simpa [coerceFrom, validFrom] using ih k
    | zero =>
      rw [coerceFrom, validFrom]
      split
      · -- three bytes for one: the result is longer than the string
        have hlen := length_le_coerceFrom 0 rest
        constructor
        · intro h
          have := congrArg List.length h
          simp only [List.length_cons] at this
          omega
        · intro h
          simp at h
      · next w _ => simpa using ih w

theorem coerce_eq_iff (s : List UInt8) : coerce s = s ↔ valid s = true :=
  coerceFrom_eq_iff 0 s

theorem valid_of_ascii {s : List UInt8} (h : ∀ b ∈ s, b < 0x80) : valid s = true := by
  induction s with
  | nil => rfl
  | cons b rest ih =>
    have hb : b < 0x80 := h b List.mem_cons_self
    rw [valid, validFrom, runeWidth_ascii hb]
    exact ih fun c hc => h c (List.mem_cons_of_mem b hc)

end Utf8
