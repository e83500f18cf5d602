import Microjet.Core.Strconv
import Microjet.Lib.Hex
import Microjet.Lib.Sorted

/-!
# How `fmt` prints values that hold secrets (`core/secretx/secretx.go`)

A `secretx.Value` has methods `String` and `GoString` that return `[REDACTED]`. Whether `fmt`
calls them depends on the verb and on how it gets to the value: `handleMethods` asks only what
can be taken out as an interface, which a value reached through an unexported field cannot.
Otherwise `printValue` prints the fields. A verb that does not fit is printed by `badVerb`, as
`%!verb(type=value)`, where the value is printed with `%v` and without asking for methods.
-/

namespace Microjet.Secretx

open Strconv

/-- `redacted` -/
def redacted : GoString := bytes "[REDACTED]"

/-- The secrets by number, given apart from the value that holds them. -/
abbrev Secrets := Nat → GoString

/-- A verb with its flags. -/
structure Format where
  verb : Char
  plus : Bool := false
  minus : Bool := false
  sharp : Bool := false
  space : Bool := false
  zero : Bool := false
  wid : Option Nat := none
  prec : Option Nat := none

namespace Format

/-- `plusV` -/
def plusV (F : Format) : Bool := F.verb = 'v' && F.plus

/-- `sharpV` -/
def sharpV (F : Format) : Bool := F.verb = 'v' && F.sharp

end Format

/-! ### Strings -/

/-- The texts with a separator between them. -/
def join (sep : GoString) : List GoString → GoString
  | [] => []
  | [s] => s
  | s :: t :: rest => s ++ sep ++ join sep (t :: rest)

/-- `padString` -/
def pad (F : Format) (s : GoString) : GoString :=
  match F.wid with
  | none => s
  | some w =>
    let padding := List.replicate (w - Utf8.count s) (if F.zero && !F.minus then 48 else 32)
    if F.minus then s ++ padding else padding ++ s

/-- `truncateString` -/
def truncate (F : Format) (s : GoString) : GoString :=
  match F.prec with
  | none => s
  | some n => Utf8.take n s

/-- `fmtS` -/
def fmtS (F : Format) (s : GoString) : GoString := pad F (truncate F s)

/-- A digit in either case. -/
def hexDigit (upper : Bool) (n : Nat) : UInt8 :=
  if n < 10 then (48 + n).toUInt8 else ((if upper then 55 else 87) + n).toUInt8

/-- What the precision leaves of the bytes. -/
def firstBytes (F : Format) (s : GoString) : GoString :=
  match F.prec with
  | none => s
  | some n => s.take n

/-- `fmtSx` -/
def fmtSx (F : Format) (upper : Bool) (s : GoString) : GoString :=
  let s := firstBytes F s
  let leading : GoString := if F.sharp then [48, if upper then 88 else 120] else []
  let sep : GoString := if F.space then 32 :: leading else []
  pad F (if s = [] then [] else
    leading ++ join sep (s.map fun b => Hex.encode (hexDigit upper) [b]))

/-- `fmtQ` -/
def fmtQ (isPrint : Nat → Bool) (F : Format) (s : GoString) : GoString :=
  let s := truncate F s
  if F.sharp && F.verb ≠ 'v' && canBackquote s then pad F (96 :: s ++ [96])
  else pad F (quoteWith isPrint (F.plus && F.verb ≠ 'v') s)

/-- `badVerb`, of a value of a type, by what `%v` prints for it. -/
def badVerb (F : Format) (type text : GoString) : GoString :=
  bytes "%!" ++ String.utf8EncodeChar F.verb ++ bytes "(" ++ type ++ bytes "=" ++ text ++ bytes ")"

/-- `fmtString` -/
def fmtString (isPrint : Nat → Bool) (F : Format) (s : GoString) : GoString :=
  match F.verb with
  | 'v' => if F.sharpV then fmtQ isPrint F s else fmtS F s
  | 's' => fmtS F s
  | 'x' => fmtSx F false s
  | 'X' => fmtSx F true s
  | 'q' => fmtQ isPrint F s
  | _ => badVerb F (bytes "string") (fmtS F s)

/-- How a field is declared. -/
inductive Visibility where
  | exported
  | unexported
  | embedded
  deriving DecidableEq, Repr

/-- A field of a struct. -/
structure Field where
  name : GoString
  visibility : Visibility
  deriving DecidableEq, Repr

/-- The read-only flag of a `reflect.Value`. -/
inductive Access where
  | free
  | embedRO
  | stickyRO
  deriving DecidableEq, Repr

/-- The flag of a field. -/
def Access.field (a : Access) : Visibility → Access
  | .exported => if a = .stickyRO then .stickyRO else .free
  | .unexported => .stickyRO
  | .embedded => if a = .stickyRO then .stickyRO else .embedRO

/-- The flag of an element, of a key, or of what is in an interface. -/
def Access.elem (a : Access) : Access := if a = .free then .free else .stickyRO

/-- A part without secrets: numbers, strings, types with methods of their own. -/
structure Leaf where
  /-- What it prints as, by the format, whether in an error text, whether at the top, and its
  flag. -/
  text : Format → Bool → Bool → Access → GoString
  composite : Bool := false
  rank : Int := 0

/-- Where something is in memory, and how that prints, in an error text or not. -/
structure Address where
  number : Nat
  text : Format → Bool → GoString

/-- A value as reflection sees it. -/
inductive GoValue where
  | leaf (l : Leaf)
  | secret (n : Nat)
  | struct (type : GoString) (methods : Bool) (fields : List (Field × GoValue))
  /-- A slice, or an array if it has no address. -/
  | list (type : GoString) (addr : Option Address) (elems : List GoValue)
  | map (type : GoString) (addr : Address) (entries : List (GoValue × GoValue))
  | pointer (type : GoString) (addr : Address) (target : GoValue)
  | interface (type : Nat) (value : GoValue)

namespace GoValue

/-- The name of its type. -/
def type : GoValue → GoString
  | .leaf _ | .interface _ _ => []
  | .secret _ => bytes "secretx.Value"
  | .struct type _ _ | .list type _ _ | .map type _ _ | .pointer type _ _ => type

/-- Whether `String` and `GoString` are methods of the type. -/
def methods : GoValue → Bool
  | .secret _ => true
  | .struct _ methods _ => methods
  | _ => false

/-- The same, where a pointer has the methods of what it points to. -/
def hasMethods : GoValue → Bool
  | .pointer _ _ target => target.methods
  | v => v.methods

/-- The kinds that a pointer at the top is followed to. -/
def composite : GoValue → Bool
  | .leaf l => l.composite
  | .secret _ | .struct _ _ _ | .list _ _ _ | .map _ _ _ => true
  | .pointer _ _ _ | .interface _ _ => false

end GoValue

/-! ### The order of keys -/

mutual

/-- `internal/fmtsort.compare` -/
def compareValues (ρ : Secrets) : GoValue → GoValue → Ordering
  | .leaf l, .leaf l' => compare l.rank l'.rank
  | .secret n, .secret n' => compare (ρ n) (ρ n')
  | .struct _ _ fields, .struct _ _ fields' => compareFields ρ fields fields'
  | .list _ _ elems, .list _ _ elems' => compareElems ρ elems elems'
  | .pointer _ addr _, .pointer _ addr' _ => compare addr.number addr'.number
  | .interface type v, .interface type' v' => (compare type type').then (compareValues ρ v v')
  | _, _ => .lt

/-- Its loop over fields. -/
def compareFields (ρ : Secrets) : List (Field × GoValue) → List (Field × GoValue) → Ordering
  | (_, v) :: fields, (_, v') :: fields' =>
    (compareValues ρ v v').then (compareFields ρ fields fields')
  | _, _ => .eq

/-- Its loop over elements. -/
def compareElems (ρ : Secrets) : List GoValue → List GoValue → Ordering
  | v :: elems, v' :: elems' => (compareValues ρ v v').then (compareElems ρ elems elems')
  | _, _ => .eq

end

/-! ### Printing -/

/-- What `printValue` looks up in the state of the printer. -/
structure Printer where
  plusV : Bool
  sharpV : Bool
  methods : Option GoString
  secret : Nat → GoString
  leaf : Leaf → Bool → Access → GoString
  pointer : Access → GoString → Address → GoValue → GoString

namespace Printer

/-- `handleMethods` in `printValue`, where the top has been asked already. -/
def handleMethods (P : Printer) (top : Bool) (a : Access) (methods : Bool) : Option GoString :=
  if methods && !top && a = .free then P.methods else none

/-- The type, with `%#v`. -/
def typeText (P : Printer) (type : GoString) : GoString := if P.sharpV then type else []

/-- What stands between two elements. -/
def sep (P : Printer) : GoString := if P.sharpV then bytes ", " else bytes " "

/-- A field, perhaps with its name. -/
def field (P : Printer) (name text : GoString) : GoString :=
  (if P.plusV || P.sharpV then name ++ bytes ":" else []) ++ text

/-- A struct. -/
def struct (P : Printer) (type : GoString) (fields : List GoString) : GoString :=
  P.typeText type ++ bytes "\x7b" ++ join P.sep fields ++ bytes "\x7d"

/-- A map or a list. -/
def brackets (P : Printer) (opening type : GoString) (texts : List GoString) : GoString :=
  if P.sharpV then type ++ bytes "\x7b" ++ join P.sep texts ++ bytes "\x7d"
  else opening ++ join P.sep texts ++ bytes "]"

end Printer

/-- How the keys of a map are compared. -/
abbrev KeyOrder := GoValue → GoValue → Ordering

/-- `fmtsort.Sort` -/
def sortEntries (cmp : KeyOrder) (entries : List (GoValue × GoString)) :
    List (GoValue × GoString) :=
  Sorted.byKey (fun k k' => (cmp k k').isLE) entries

mutual

/-- `printValue` -/
def printValue (P : Printer) (cmp : KeyOrder) (top : Bool) (a : Access) : GoValue → GoString
  | .leaf l => P.leaf l top a
  | .secret n =>
    (P.handleMethods top a true).getD
      (P.struct (bytes "secretx.Value") [P.field (bytes "s") (P.secret n)])
  | .struct type methods fields =>
    (P.handleMethods top a methods).getD (P.struct type (printFields P cmp a fields))
  | .list type _ elems => P.brackets (bytes "[") type (printElems P cmp a elems)
  | .map type _ entries =>
    P.brackets (bytes "map[") type ((sortEntries cmp (printEntries P cmp a entries)).map Prod.snd)
  | .pointer type addr target =>
    (P.handleMethods top a target.methods).getD
      (if top && target.composite then bytes "&" ++ printValue P cmp false a target
        else P.pointer a type addr target)
  | .interface _ v => printValue P cmp false a.elem v

/-- Its loop over fields. -/
def printFields (P : Printer) (cmp : KeyOrder) (a : Access) :
    List (Field × GoValue) → List GoString
  | [] => []
  | (f, v) :: fields =>
    P.field f.name (printValue P cmp false (a.field f.visibility) v) ::
      printFields P cmp a fields

/-- Its loop over elements. -/
def printElems (P : Printer) (cmp : KeyOrder) (a : Access) : List GoValue → List GoString
  | [] => []
  | v :: elems => printValue P cmp false a.elem v :: printElems P cmp a elems

/-- Its loop over a map. -/
def printEntries (P : Printer) (cmp : KeyOrder) (a : Access) :
    List (GoValue × GoValue) → List (GoValue × GoString)
  | [] => []
  | (k, v) :: entries =>
    (k, printValue P cmp false a.elem k ++ bytes ":" ++ printValue P cmp false a.elem v) ::
      printEntries P cmp a entries

end

section Sprintf

variable (isPrint : Nat → Bool)

/-- `handleMethods`, of a value with the methods. -/
def Format.methods (F : Format) : Option GoString :=
  if F.sharpV then some (fmtS F redacted)
  else if ['v', 's', 'x', 'X', 'q'].contains F.verb then some (fmtString isPrint F redacted)
  else none

/-- How `badVerb` prints. -/
def errorPrinter (F : Format) (ρ : Secrets) : Printer where
  plusV := false
  sharpV := false
  methods := none
  secret := fun n => fmtS F (ρ n)
  leaf := fun l top a => l.text F true top a
  pointer := fun _ _ addr _ => addr.text F true

/-- `badVerb` on a value. -/
def printBad (F : Format) (ρ : Secrets) (cmp : KeyOrder) (a : Access) (v : GoValue) : GoString :=
  badVerb F v.type (printValue (errorPrinter F ρ) cmp true a v)

/-- `fmtPointer` takes the verb. -/
def Format.fitsPointer (F : Format) : Bool := ['v', 'b', 'o', 'd', 'x', 'X'].contains F.verb

/-- How a format prints. -/
def printer (F : Format) (ρ : Secrets) (cmp : KeyOrder) : Printer where
  plusV := F.plusV
  sharpV := F.sharpV
  methods := F.methods isPrint
  secret := fun n => fmtString isPrint F (ρ n)
  leaf := fun l top a => l.text F false top a
  pointer := fun a type addr target =>
    if F.fitsPointer then addr.text F false
    else printBad F ρ cmp a (.pointer type addr target)

/-- `fmtPointer` -/
def fmtPointer (F : Format) (ρ : Secrets) (cmp : KeyOrder) : GoValue → GoString
  | .pointer _ addr _ | .map _ addr _ | .list _ (some addr) _ => addr.text F false
  | v => printBad F ρ cmp .free v

/-- `handleMethods` on the argument. -/
def handleTop (F : Format) (v : GoValue) : Option GoString :=
  if v.hasMethods then F.methods isPrint else none

/-- `printArg` of something with secrets. -/
def printVerb (F : Format) (ρ : Secrets) (cmp : KeyOrder) (v : GoValue) : GoString :=
  match F.verb with
  | 'T' => fmtS F v.type
  | 'p' => fmtPointer F ρ cmp v
  | 'w' => printBad F ρ cmp .free v
  | _ => (handleTop isPrint F v).getD (printValue (printer isPrint F ρ cmp) cmp true .free v)

/-- `printArg` -/
def printArg (F : Format) (ρ : Secrets) (cmp : KeyOrder) : GoValue → GoString
  | .leaf l => l.text F false true .free
  | v => printVerb isPrint F ρ cmp v

end Sprintf

end Microjet.Secretx
