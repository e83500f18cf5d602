import Mathlib.Data.List.Basic

/-!
# Base64

The standard alphabet with padding. Reading skips line breaks, and does not look at the bits
that padding leaves over.
-/

namespace Base64

/-- The digit for six bits. -/
def digit (n : Nat) : UInt8 :=
  if n < 26 then (65 + n).toUInt8
  else if n < 52 then (71 + n).toUInt8
  else if n < 62 then (n - 4).toUInt8
  else if n = 62 then 43
  else 47

/-- The bits of a digit. -/
def value (c : UInt8) : Option Nat :=
  if 65 ≤ c ∧ c ≤ 90 then some (c.toNat - 65)
  else if 97 ≤ c ∧ c ≤ 122 then some (c.toNat - 71)
  else if 48 ≤ c ∧ c ≤ 57 then some (c.toNat + 4)
  else if c = 43 then some 62
  else if c = 47 then some 63
  else none

/-- The padding. -/
def pad : UInt8 := 61

/-- Four digits for three bytes. -/
def encode : List UInt8 → List UInt8
  | [] => []
  | [a] => [digit (a.toNat / 4), digit (a.toNat % 4 * 16), pad, pad]
  | [a, b] =>
    [digit (a.toNat / 4), digit (a.toNat % 4 * 16 + b.toNat / 16),
      digit (b.toNat % 16 * 4), pad]
  | a :: b :: c :: rest =>
    digit (a.toNat / 4) :: digit (a.toNat % 4 * 16 + b.toNat / 16) ::
      digit (b.toNat % 16 * 4 + c.toNat / 64) :: digit (c.toNat % 64) :: encode rest

/-- The groups of four. Padding ends the text. -/
def decodeGroups : List UInt8 → Option (List UInt8)
  | [] => some []
  | a :: b :: c :: d :: rest => do
      let m ← value a
      let n ← value b
      let first := (m * 4 + n / 16).toUInt8
      if c = pad then
        if d = pad ∧ rest = [] then some [first] else none
      else
        let k ← value c
        let second := (n % 16 * 16 + k / 4).toUInt8
        if d = pad then
          if rest = [] then some [first, second] else none
        else
          let l ← value d
          let bytes ← decodeGroups rest
          return first :: second :: (k % 4 * 64 + l).toUInt8 :: bytes
  | _ => none

/-- Reading, without the line breaks. -/
def decode (s : List UInt8) : Option (List UInt8) :=
  decodeGroups (s.filter fun c => c != 10 && c != 13)

/-! ## What was written is read back -/

theorem digit_spec {n : Nat} (h : n < 64) :
    value (digit n) = some n ∧ digit n ≠ pad ∧ digit n ≠ 10 ∧ digit n ≠ 13 := by
  have hall : ∀ n : Fin 64, value (digit n) = some n.val ∧ digit n ≠ pad ∧
      digit n ≠ 10 ∧ digit n ≠ 13 := by decide
  exact hall ⟨n, h⟩

theorem toUInt8_eq {n : Nat} {a : UInt8} (h : n = a.toNat) : n.toUInt8 = a := by
  rw [h]
  exact UInt8.ofNat_toNat

theorem decodeGroups_encode : ∀ bytes : List UInt8,
    decodeGroups (encode bytes) = some bytes := by
  intro bytes
  induction bytes using encode.induct with
  | case1 => rfl
  | case2 a =>
    have ha := a.toNat_lt
    obtain ⟨h₁, -⟩ := digit_spec (n := a.toNat / 4) (by omega)
    obtain ⟨h₂, -⟩ := digit_spec (n := a.toNat % 4 * 16) (by omega)
    have hfirst : (a.toNat / 4 * 4 + a.toNat % 4 * 16 / 16).toUInt8 = a :=
      toUInt8_eq (by omega)
    simp only [encode, decodeGroups, h₁, h₂, Option.bind_eq_bind, Option.bind_some,
      and_self, if_true, hfirst]
  | case3 a b =>
    have ha := a.toNat_lt
    have hb := b.toNat_lt
    obtain ⟨h₁, -⟩ := digit_spec (n := a.toNat / 4) (by omega)
    obtain ⟨h₂, -⟩ := digit_spec (n := a.toNat % 4 * 16 + b.toNat / 16) (by omega)
    obtain ⟨h₃, hpad, -⟩ := digit_spec (n := b.toNat % 16 * 4) (by omega)
    have hfirst : (a.toNat / 4 * 4 +
        (a.toNat % 4 * 16 + b.toNat / 16) / 16).toUInt8 = a := toUInt8_eq (by omega)
    have hsecond : ((a.toNat % 4 * 16 + b.toNat / 16) % 16 * 16 +
        b.toNat % 16 * 4 / 4).toUInt8 = b := toUInt8_eq (by omega)
    simp only [encode, decodeGroups, h₁, h₂, h₃, Option.bind_eq_bind, Option.bind_some,
      if_neg hpad, if_true, hfirst, hsecond]
  | case4 a b c rest ih =>
    have ha := a.toNat_lt
    have hb := b.toNat_lt
    have hc := c.toNat_lt
    obtain ⟨h₁, -⟩ := digit_spec (n := a.toNat / 4) (by omega)
    obtain ⟨h₂, -⟩ := digit_spec (n := a.toNat % 4 * 16 + b.toNat / 16) (by omega)
    obtain ⟨h₃, hpad, -⟩ :=
      digit_spec (n := b.toNat % 16 * 4 + c.toNat / 64) (by omega)
    obtain ⟨h₄, hpad', -⟩ := digit_spec (n := c.toNat % 64) (by omega)
    have hfirst : (a.toNat / 4 * 4 +
        (a.toNat % 4 * 16 + b.toNat / 16) / 16).toUInt8 = a := toUInt8_eq (by omega)
    have hsecond : ((a.toNat % 4 * 16 + b.toNat / 16) % 16 * 16 +
        (b.toNat % 16 * 4 + c.toNat / 64) / 4).toUInt8 = b := toUInt8_eq (by omega)
    have hthird : ((b.toNat % 16 * 4 + c.toNat / 64) % 4 * 64 +
        c.toNat % 64).toUInt8 = c := toUInt8_eq (by omega)
    simp only [encode, decodeGroups, h₁, h₂, h₃, h₄, Option.bind_eq_bind,
      Option.bind_some, if_neg hpad, if_neg hpad', hfirst, hsecond, hthird, ih,
      Option.pure_def]

theorem not_newline : ∀ bytes : List UInt8, ∀ c ∈ encode bytes, c ≠ 10 ∧ c ≠ 13 := by
  intro bytes
  have hdigit : ∀ {n : Nat} {c : UInt8}, n < 64 → c = digit n → c ≠ 10 ∧ c ≠ 13 := by
    rintro n c hn rfl
    exact (digit_spec hn).2.2
  have hpad : ∀ {c : UInt8}, c = pad → c ≠ 10 ∧ c ≠ 13 := by
    rintro c rfl
    decide
  induction bytes using encode.induct with
  | case1 =>
    intro c hc
    cases hc
  | case2 a =>
    intro c hc
    have ha := a.toNat_lt
    simp only [encode, List.mem_cons, List.not_mem_nil, or_false] at hc
    rcases hc with hc | hc | hc | hc
    · exact hdigit (by omega) hc
    · exact hdigit (by omega) hc
    · exact hpad hc
    · exact hpad hc
  | case3 a b =>
    intro c hc
    have ha := a.toNat_lt
    have hb := b.toNat_lt
    simp only [encode, List.mem_cons, List.not_mem_nil, or_false] at hc
    rcases hc with hc | hc | hc | hc
    · exact hdigit (by omega) hc
    · exact hdigit (by omega) hc
    · exact hdigit (by omega) hc
    · exact hpad hc
  | case4 a b d rest ih =>
    intro c hc
    have ha := a.toNat_lt
    have hb := b.toNat_lt
    have hd := d.toNat_lt
    simp only [encode, List.mem_cons] at hc
    rcases hc with hc | hc | hc | hc | hc
    · exact hdigit (by omega) hc
    · exact hdigit (by omega) hc
    · exact hdigit (by omega) hc
    · exact hdigit (by omega) hc
    · exact ih c hc

theorem decode_encode (bytes : List UInt8) : decode (encode bytes) = some bytes := by
  rw [decode, List.filter_eq_self.mpr]
  · exact decodeGroups_encode bytes
  · intro c hc
    simpa using not_newline bytes c hc

theorem encode_ne_nil {bytes : List UInt8} (h : bytes ≠ []) : encode bytes ≠ [] := by
  induction bytes using encode.induct with
  | case1 => exact absurd rfl h
  | case2 a => simp [encode]
  | case3 a b => simp [encode]
  | case4 a b c rest ih => simp [encode]

end Base64
