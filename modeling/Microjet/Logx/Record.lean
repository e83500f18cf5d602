import Microjet.Logx.Text
import Mathlib.Data.Nat.Digits.Defs

/-!
# Records (`core/logx/logger.go`)

What a line begins with: the time in UTC, the label of the level and the message.
-/

namespace Microjet.Logx

open Secretx

/-- A time in UTC. -/
structure UTCTime where
  year : Int
  month : Nat
  day : Nat
  hour : Nat
  minute : Nat
  second : Nat
  millisecond : Nat

/-- `appendInt`: the digits, with zeros in front up to a width. -/
def padDigits (width n : Nat) : GoString :=
  let digits := (Nat.digits 10 n).reverse.map fun d => (48 + d).toUInt8
  List.replicate (width - digits.length) 48 ++ digits

/-- `Format("2006-01-02T15:04:05.000Z")`. -/
def UTCTime.format (t : UTCTime) : GoString :=
  (if t.year < 0 then bytes "-" else []) ++ padDigits 4 t.year.natAbs ++ bytes "-" ++
    padDigits 2 t.month ++ bytes "-" ++ padDigits 2 t.day ++ bytes "T" ++
    padDigits 2 t.hour ++ bytes ":" ++ padDigits 2 t.minute ++ bytes ":" ++
    padDigits 2 t.second ++ bytes "." ++ padDigits 3 t.millisecond ++ bytes "Z"

/-- The levels are `LevelInfo = 0`, `LevelWarn = 4` and `LevelError = 8`. -/
def levelLabel (l : Int) : GoString :=
  if 8 ≤ l then bytes "ERR"
  else if 4 ≤ l then bytes "WRN"
  else if 0 ≤ l then bytes "INF"
  else bytes "DBG"

/-- `slog.Record` -/
structure Record where
  time : UTCTime
  level : Int
  message : GoString
  attrs : List Attr

/-- What a line begins with. -/
def Record.head (r : Record) : GoString :=
  r.time.format ++ bytes " [" ++ levelLabel r.level ++ bytes "] " ++ r.message

/-- `Handle` on a record. -/
def PlainTextHandler.handleRecord (isPrint : Nat → Bool) (ρ : Secrets) (h : PlainTextHandler)
    (r : Record) : GoString :=
  h.handle isPrint ρ r.head r.attrs

end Microjet.Logx
