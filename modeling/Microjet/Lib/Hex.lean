import Mathlib.Data.List.Basic

/-!
# Hexadecimal text

Any alphabet whose sixteen digits differ can be read back (`encode_inj`).
-/

namespace Hex

variable {α : Type} {digit : Nat → α}

/-- Two digits for every byte, the high half first. -/
def encode (digit : Nat → α) (bytes : List UInt8) : List α :=
  bytes.flatMap fun b => [digit (b.toNat / 16), digit (b.toNat % 16)]

theorem encode_cons (b : UInt8) (bytes : List UInt8) :
    encode digit (b :: bytes) =
      digit (b.toNat / 16) :: digit (b.toNat % 16) :: encode digit bytes := rfl

theorem length_encode (bytes : List UInt8) :
    (encode digit bytes).length = 2 * bytes.length := by
  induction bytes with
  | nil => rfl
  | cons b bytes ih =>
    rw [encode_cons, List.length_cons, List.length_cons, ih, List.length_cons]
    omega

theorem encode_inj
    (hdigit : ∀ a b, a < 16 → b < 16 → digit a = digit b → a = b) :
    ∀ {bytes bytes' : List UInt8},
      encode digit bytes = encode digit bytes' → bytes = bytes' := by
  intro bytes
  induction bytes with
  | nil =>
    intro bytes' h
    cases bytes' with
    | nil => rfl
    | cons b' bytes' => cases h
  | cons b bytes ih =>
    intro bytes' h
    cases bytes' with
    | nil => cases h
    | cons b' bytes' =>
      rw [encode_cons, encode_cons, List.cons.injEq, List.cons.injEq] at h
      obtain ⟨hhigh, hlow, hrest⟩ := h
      have hb := b.toNat_lt
      have hb' := b'.toNat_lt
      have hdiv := hdigit _ _ (by omega) (by omega) hhigh
      have hmod := hdigit _ _ (by omega) (by omega) hlow
      have heq : b = b' := UInt8.toNat_inj.mp (by omega)
      rw [heq, ih hrest]

end Hex
