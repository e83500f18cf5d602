import Microjet.Core.Go
import Microjet.Lib.Decimal

/-!
# Money and its minor units (`core/types/money`)

An amount is a decimal with a currency. The decimals of the library have no bound
(`Lib/Decimal.lean`), and `IntPart` keeps the low 64 bits of the whole part.
-/

namespace Microjet

open Decimals

/-- An ISO 4217 code. -/
abbrev CurrencyCode := GoString

/-- `Money` -/
structure Money where
  value : Decimal
  currencyCode : CurrencyCode

namespace CurrencyCode

def defaultExponent : Int := 2

def zeroDecimal : List CurrencyCode :=
  ["BIF", "CLP", "DJF", "GNF", "IRR", "JPY", "KMF", "KRW", "PYG", "RWF", "UGX", "VND", "VUV",
    "XAF", "XOF", "XPF"].map bytes

def threeDecimal : List CurrencyCode :=
  ["BHD", "IQD", "JOD", "KWD", "LYD", "OMR", "TND"].map bytes

/-- `Exponent`: the digits of the smallest unit. -/
def exponent (c : CurrencyCode) : Int :=
  if zeroDecimal.contains c then 0
  else if threeDecimal.contains c then 3
  else defaultExponent

end CurrencyCode

namespace Money

/-- `Decimal.IntPart` -/
def intPart (d : Decimal) : Int64 := Int64.ofInt (d.rescale 0).value

/-- `FromMinorUnits` -/
def fromMinorUnits (amount : Int64) (currency : CurrencyCode) : Money :=
  ⟨⟨amount.toInt, -currency.exponent⟩, currency⟩

/-- `MinorUnits`: in the smallest unit, rounded. -/
def minorUnits (m : Money) : Int64 :=
  intPart (m.value.shift m.currencyCode.exponent).round

end Money

end Microjet
