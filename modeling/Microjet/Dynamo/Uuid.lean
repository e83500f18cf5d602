import Microjet.Core.Go
import Microjet.Lib.Hex

/-!
# UUIDs

`uuid.UUID` of the uuid library: `String` writes 36 bytes in lower case, `Parse` reads that
form in either case and three more.
-/

namespace Microjet.Dynamo

open Errorx

/-- `uuid.UUID` -/
structure UUID where
  bytes : List UInt8
  length_eq : bytes.length = 16
  deriving DecidableEq

/-- A digit in lower case. -/
def hexByte (n : Nat) : UInt8 := if n < 10 then (48 + n).toUInt8 else (87 + n).toUInt8

/-- The digits of some bytes. -/
def hexText (b : List UInt8) : GoString := Hex.encode hexByte b

/-- `String` -/
def UUID.string (u : UUID) : GoString :=
  hexText (u.bytes.take 4) ++ (45 :: hexText ((u.bytes.drop 4).take 2) ++
    (45 :: hexText ((u.bytes.drop 6).take 2) ++
      (45 :: hexText ((u.bytes.drop 8).take 2) ++ (45 :: hexText (u.bytes.drop 10)))))

/-- The value of a digit. -/
def hexValue (b : UInt8) : Option Nat :=
  if 48 ≤ b ∧ b ≤ 57 then some (b.toNat - 48)
  else if 97 ≤ b ∧ b ≤ 102 then some (b.toNat - 87)
  else if 65 ≤ b ∧ b ≤ 70 then some (b.toNat - 55)
  else none

/-- `xtob` -/
def xtob (hi lo : UInt8) : Option UInt8 := do
  let h ← hexValue hi
  let l ← hexValue lo
  return (16 * h + l).toUInt8

/-- The bytes whose digits are at the places `xs`. -/
def readBytes (s : GoString) : List Nat → Option (List UInt8)
  | [] => some []
  | x :: xs => do
      let b ← xtob (s.getD x 0) (s.getD (x + 1) 0)
      let bs ← readBytes s xs
      return b :: bs

theorem length_readBytes {s : GoString} : ∀ {xs : List Nat} {b : List UInt8},
    readBytes s xs = some b → b.length = xs.length := by
  intro xs
  induction xs with
  | nil =>
    intro b h
    cases h
    rfl
  | cons x xs ih =>
    intro b h
    simp only [readBytes, Option.bind_eq_bind, Option.bind_eq_some_iff,
      Option.pure_def, Option.some.injEq] at h
    obtain ⟨c, -, cs, hcs, rfl⟩ := h
    rw [List.length_cons, List.length_cons, ih hcs]

/-- The places in the form with dashes. -/
def dashed : List Nat := [0, 2, 4, 6, 9, 11, 14, 16, 19, 21, 24, 26, 28, 30, 32, 34]

/-- The places in the form without. -/
def plain : List Nat := [0, 2, 4, 6, 8, 10, 12, 14, 16, 18, 20, 22, 24, 26, 28, 30]

/-- A UUID from 16 places. -/
def readUUID (s : GoString) (xs : List Nat) (hxs : xs.length = 16) : Except Err UUID :=
  match h : readBytes s xs with
  | none => .error (.other "invalid UUID format")
  | some b => .ok ⟨b, (length_readBytes h).trans hxs⟩

/-- The form with dashes. -/
def parseDashed (s : GoString) : Except Err UUID :=
  if s.getD 8 0 = 45 ∧ s.getD 13 0 = 45 ∧ s.getD 18 0 = 45 ∧ s.getD 23 0 = 45 then
    readUUID s dashed rfl
  else .error (.other "invalid UUID format")

/-- A letter in lower case. -/
def lower (b : UInt8) : UInt8 := if 65 ≤ b ∧ b ≤ 90 then b + 32 else b

/-- `Parse` -/
def parseUUID (s : GoString) : Except Err UUID :=
  if s.length = 36 then parseDashed s
  else if s.length = 36 + 9 then
    if (s.take 9).map lower = bytes "urn:uuid:" then parseDashed (s.drop 9)
    else .error (.other ("invalid urn prefix: \"" ++ GoString.text (s.take 9) ++ "\""))
  else if s.length = 36 + 2 then parseDashed (s.drop 1)
  else if s.length = 32 then readUUID s plain rfl
  else .error (.other ("invalid UUID length: " ++ toString s.length))

/-! ## What keys rely on -/

theorem hexByte_inj {a b : Nat} (ha : a < 16) (hb : b < 16)
    (h : hexByte a = hexByte b) : a = b := by
  have hall : ∀ a b : Fin 16, hexByte a = hexByte b → a = b := by decide
  exact congrArg Fin.val (hall ⟨a, ha⟩ ⟨b, hb⟩ h)

theorem hexText_inj {b b' : List UInt8} (h : hexText b = hexText b') : b = b' :=
  Hex.encode_inj (fun _ _ => hexByte_inj) h

theorem UUID.length_string (u : UUID) : u.string.length = 36 := by
  have hlen := u.length_eq
  simp only [UUID.string, hexText, List.length_append, List.length_cons,
    Hex.length_encode, List.length_take, List.length_drop, hlen]
  omega

theorem UUID.string_inj {u u' : UUID} (h : u.string = u'.string) : u = u' := by
  have hlen := u.length_eq
  have hlen' := u'.length_eq
  have hgroup : ∀ {n k : Nat}, (hexText ((u.bytes.drop n).take k)).length =
      (hexText ((u'.bytes.drop n).take k)).length := by
    intro n k
    simp only [hexText, Hex.length_encode, List.length_take, List.length_drop, hlen, hlen']
  obtain ⟨h₁, h⟩ := List.append_inj h (hgroup (n := 0))
  obtain ⟨h₂, h⟩ := List.append_inj (List.cons.inj h).2 hgroup
  obtain ⟨h₃, h⟩ := List.append_inj (List.cons.inj h).2 hgroup
  obtain ⟨h₄, h⟩ := List.append_inj (List.cons.inj h).2 hgroup
  have hbytes : u.bytes = u'.bytes := by
    rw [← List.take_append_drop 4 u.bytes, ← List.take_append_drop 4 u'.bytes,
      hexText_inj h₁, ← List.take_append_drop 2 (u.bytes.drop 4),
      ← List.take_append_drop 2 (u'.bytes.drop 4), hexText_inj h₂, List.drop_drop,
      List.drop_drop, ← List.take_append_drop 2 (u.bytes.drop 6),
      ← List.take_append_drop 2 (u'.bytes.drop 6), hexText_inj h₃, List.drop_drop,
      List.drop_drop, ← List.take_append_drop 2 (u.bytes.drop 8),
      ← List.take_append_drop 2 (u'.bytes.drop 8), hexText_inj h₄, List.drop_drop,
      List.drop_drop, hexText_inj (List.cons.inj h).2]
  obtain ⟨b, hb⟩ := u
  obtain ⟨b', hb'⟩ := u'
  cases hbytes
  rfl

end Microjet.Dynamo
