import Microjet.Secretx.Fmt

/-!
# The text log handler (`core/logx/logger.go`)

One line for a record: the time, the level and the message, which are the argument `head`, and
then the attributes.
-/

namespace Microjet.Logx

open Secretx Strconv

/-- `slog.Value` -/
inductive LogValue where
  | nil
  | string (s : GoString)
  | time (text : GoString)
  | duration (text : GoString)
  | any (v : GoValue)
  | group (attrs : List (GoString × LogValue))

/-- `slog.Attr` -/
abbrev Attr := GoString × LogValue

/-- `Resolve`: a `slog.LogValuer`, as `secretx.Value` is, becomes `[REDACTED]`. -/
def LogValue.resolve : LogValue → LogValue
  | .any v => if v.hasMethods then .string redacted else .any v
  | v => v

/-- The value is written in quotes. -/
def needsQuotes (val : GoString) : Bool := val.any fun b => [32, 9, 10, 34, 61].contains b

/-- A key below a group. -/
def qualify (grp key : GoString) : GoString := if grp = [] then key else grp ++ bytes "." ++ key

section Write

variable (isPrint : Nat → Bool) (ρ : Secrets) (cmp : KeyOrder)

/-- A value as text, by `%v` unless it has one. -/
def fmtValue : LogValue → GoString
  | .nil => bytes "<nil>"
  | .string s => s
  | .time text => text
  | .duration text => text
  | .any v => printArg isPrint { verb := 'v' } ρ cmp v
  | .group _ => []

/-- One key and value. -/
def writeValue (grp key val : GoString) : GoString :=
  bytes " " ++ qualify grp key ++ bytes "=" ++
    (if needsQuotes val then quote isPrint val else val)

mutual

/-- `writeAttr` -/
def writeAttr (grp key : GoString) : LogValue → GoString
  | .group attrs => writeAttrs (if key = [] then grp else qualify grp key) attrs
  | .nil => if key = [] then [] else writeValue isPrint grp key (fmtValue isPrint ρ cmp .nil)
  | v => writeValue isPrint grp key (fmtValue isPrint ρ cmp v.resolve)

/-- Its loop over a group. -/
def writeAttrs (grp : GoString) : List Attr → GoString
  | [] => []
  | (key, v) :: attrs => writeAttr grp key v ++ writeAttrs grp attrs

end

end Write

/-- `plainTextHandler` -/
structure PlainTextHandler where
  pre : List Attr := []
  grp : GoString := []

namespace PlainTextHandler

/-- `WithAttrs` -/
def withAttrs (h : PlainTextHandler) (attrs : List Attr) : PlainTextHandler :=
  { h with pre := h.pre ++ attrs }

/-- `WithGroup` -/
def withGroup (h : PlainTextHandler) (name : GoString) : PlainTextHandler :=
  { h with grp := qualify h.grp name }

/-- The line of a record. -/
def line (isPrint : Nat → Bool) (ρ : Secrets) (cmp : KeyOrder) (h : PlainTextHandler)
    (head : GoString) (attrs : List Attr) : GoString :=
  head ++ writeAttrs isPrint ρ cmp h.grp h.pre ++ writeAttrs isPrint ρ cmp h.grp attrs ++
    bytes "\n"

/-- `Handle` -/
def handle (isPrint : Nat → Bool) (ρ : Secrets) (h : PlainTextHandler) (head : GoString)
    (attrs : List Attr) : GoString :=
  h.line isPrint ρ (compareValues ρ) head attrs

end PlainTextHandler

end Microjet.Logx
