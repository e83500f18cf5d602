import Microjet.Core.Go
import Microjet.Lib.Utf8

/-!
# Package `strconv`: quoting

`Quote`, `QuoteToASCII` and `CanBackquote`, character by character. Which characters beyond
ASCII are printable is the argument `isPrint`, the table behind `strconv.IsPrint`.
-/

namespace Microjet.Strconv

def lowerHex (n : Nat) : UInt8 := if n < 10 then (48 + n).toUInt8 else (87 + n).toUInt8

def hexDigits : Nat → Nat → GoString
  | 0, _ => []
  | width + 1, n => hexDigits width (n / 16) ++ [lowerHex (n % 16)]

/-- The code point of a rune's bytes. -/
def runeValue : GoString → Nat
  | [a, b] => (a.toNat % 32) * 64 + b.toNat % 64
  | [a, b, c] => (a.toNat % 16) * 4096 + (b.toNat % 64) * 64 + c.toNat % 64
  | [a, b, c, d] =>
    (a.toNat % 8) * 262144 + (b.toNat % 64) * 4096 + (c.toNat % 64) * 64 + d.toNat % 64
  | _ => 0xFFFD

/-- An ASCII character in quotes. -/
def escapeAscii (b : UInt8) : GoString :=
  if b = 34 || b = 92 then [92, b]
  else if 32 ≤ b && b < 127 then [b]
  else
    match b with
    | 7 => bytes "\\a"
    | 8 => bytes "\\b"
    | 12 => bytes "\\f"
    | 10 => bytes "\\n"
    | 13 => bytes "\\r"
    | 9 => bytes "\\t"
    | 11 => bytes "\\v"
    | _ => bytes "\\x" ++ hexDigits 2 b.toNat

/-- Any other character in quotes. -/
def escapeWide (isPrint : Nat → Bool) (asciiOnly : Bool) (c : GoString) : GoString :=
  if !asciiOnly && isPrint (runeValue c) then c
  else if runeValue c < 0x10000 then bytes "\\u" ++ hexDigits 4 (runeValue c)
  else bytes "\\U" ++ hexDigits 8 (runeValue c)

/-- The character at the head of a string, of the given width; none is a byte by itself. -/
def escape (isPrint : Nat → Bool) (asciiOnly : Bool) (b : UInt8) (rest : GoString) : GoString :=
  match Utf8.runeWidth (b :: rest) with
  | 0 => bytes "\\x" ++ hexDigits 2 b.toNat
  | 1 => escapeAscii b
  | w + 2 => escapeWide isPrint asciiOnly (b :: rest.take (w + 1))

/-- `appendQuotedWith`, inside a character of which `k` bytes are still to come. -/
def quoteFrom (isPrint : Nat → Bool) (asciiOnly : Bool) : Nat → GoString → GoString
  | _, [] => []
  | k + 1, _ :: rest => quoteFrom isPrint asciiOnly k rest
  | 0, b :: rest =>
    escape isPrint asciiOnly b rest ++
      quoteFrom isPrint asciiOnly (Utf8.runeWidth (b :: rest) - 1) rest

/-- `quoteWith` -/
def quoteWith (isPrint : Nat → Bool) (asciiOnly : Bool) (s : GoString) : GoString :=
  34 :: quoteFrom isPrint asciiOnly 0 s ++ [34]

/-- `Quote` -/
def quote (isPrint : Nat → Bool) : GoString → GoString := quoteWith isPrint false

def backquotable (b : UInt8) (rest : GoString) : Bool :=
  match Utf8.runeWidth (b :: rest) with
  | 0 => false
  | 1 => (32 ≤ b || b = 9) && b ≠ 96 && b ≠ 127
  | w + 2 => runeValue (b :: rest.take (w + 1)) ≠ 0xFEFF

/-- `CanBackquote`, inside a character of which `k` bytes are still to come. -/
def canBackquoteFrom : Nat → GoString → Bool
  | _, [] => true
  | k + 1, _ :: rest => canBackquoteFrom k rest
  | 0, b :: rest =>
    backquotable b rest && canBackquoteFrom (Utf8.runeWidth (b :: rest) - 1) rest

/-- `CanBackquote` -/
def canBackquote (s : GoString) : Bool := canBackquoteFrom 0 s

end Microjet.Strconv
