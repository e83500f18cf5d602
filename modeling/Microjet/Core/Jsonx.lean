import Microjet.Lib.Assoc
import Microjet.Lib.Binary

/-!
# JSON by type (`core/jsonx/jsonx.go`)

`AnyToStruct` writes an untyped value as JSON and reads this text into a value of a type, with
`jsoniter`, modelled after the documentation of `encoding/json`. A text is its tree with the
literals of its numbers: white space, escapes and the spelling of an exponent are left out.
-/

namespace Microjet.Jsonx

open Assoc Binary Decimals

/-- A number: its digits, how many of them are behind the point, and the exponent if there is
one. -/
structure Literal where
  neg : Bool := false
  digits : ℕ
  places : ℕ := 0
  exp : Option ℤ := none
  deriving DecidableEq

/-- Its value, without the sign. -/
def Literal.magnitude (l : Literal) : ℚ := l.digits * 10 ^ (l.exp.getD 0 - l.places)

/-- A JSON text. -/
inductive Json where
  | null
  | bool (b : Bool)
  | num (l : Literal)
  | str (s : String)
  | arr (es : List Json)
  | obj (ms : List (String × Json))

/-- What is read into an `any`. -/
inductive Untyped where
  | nil
  | bool (b : Bool)
  | float64 (neg : Bool) (y : ℚ)
  | string (s : String)
  | slice (es : List Untyped)
  | map (ms : List (String × Untyped))

/-! ## Numbers -/

/-- `strconv.ParseFloat`: the nearest number of the format, unless it is too large. -/
def parseFloat (f : Format) (l : Literal) : Option ℚ :=
  if f.nearest l.magnitude < 2 ^ f.emax then some (f.nearest l.magnitude) else none

/-- `strconv.AppendFloat` with as many digits as it takes. -/
def appendFloat (neg : Bool) (y : ℚ) : Literal :=
  let d := binary64.shortest y
  if y = 0 ∨ 10 ^ (-6 : ℤ) ≤ y ∧ y < 10 ^ (21 : ℤ) then
    if 0 ≤ d.exp then { neg, digits := d.value.toNat * 10 ^ d.exp.toNat }
    else { neg, digits := d.value.toNat, places := (-d.exp).toNat }
  else
    let places := Nat.log 10 d.value.toNat
    { neg, digits := d.value.toNat, places, exp := some (d.exp + places) }

/-- The width of an integer type. -/
inductive Width where
  | w8 | w16 | w32 | w64

def Width.bits : Width → ℕ
  | .w8 => 8
  | .w16 => 16
  | .w32 => 32
  | .w64 => 64

/-- The integer of a literal without point and exponent. -/
def Literal.integer (l : Literal) : ℤ := if l.neg then -l.digits else l.digits

/-- An integer type takes literals without point and exponent, in its range. -/
def readInt (signed : Bool) (w : Width) (l : Literal) : Option ℤ :=
  if l.places ≠ 0 ∨ l.exp ≠ none then none
  else if signed then
    if -2 ^ (w.bits - 1) ≤ l.integer ∧ l.integer < 2 ^ (w.bits - 1) then some l.integer else none
  else if l.neg = false ∧ l.integer < 2 ^ w.bits then some l.integer
  else none

/-! ## Untyped values -/

mutual

/-- A text read into an `any`: a number becomes the nearest double. -/
def unmarshalAny : Json → Option Untyped
  | .null => some .nil
  | .bool b => some (.bool b)
  | .num l => (parseFloat binary64 l).map (.float64 l.neg)
  | .str s => some (.string s)
  | .arr es => (unmarshalAnys es).map .slice
  | .obj ms => (unmarshalNamed ms).map fun vs => .map (keepLast vs)

def unmarshalAnys : List Json → Option (List Untyped)
  | [] => some []
  | e :: es => (unmarshalAny e).bind fun v => (unmarshalAnys es).map (v :: ·)

def unmarshalNamed : List (String × Json) → Option (List (String × Untyped))
  | [] => some []
  | (k, j) :: ms => (unmarshalAny j).bind fun v => (unmarshalNamed ms).map ((k, v) :: ·)

end

/-- In which order the members of a map are visited. -/
structure MapOrder where
  visit : List (String × Json) → List (String × Json)
  perm : ∀ ms, (visit ms).Perm ms

mutual

/-- An untyped value as text; a map in the order it is iterated in. -/
def marshalAny (order : MapOrder) : Untyped → Json
  | .nil => .null
  | .bool b => .bool b
  | .float64 neg y => .num (appendFloat neg y)
  | .string s => .str s
  | .slice es => .arr (marshalAnys order es)
  | .map ms => .obj (order.visit (marshalNamed order ms))

def marshalAnys (order : MapOrder) : List Untyped → List Json
  | [] => []
  | v :: vs => marshalAny order v :: marshalAnys order vs

def marshalNamed (order : MapOrder) : List (String × Untyped) → List (String × Json)
  | [] => []
  | (k, v) :: ms => (k, marshalAny order v) :: marshalNamed order ms

end

/-! ## Typed values -/

/-- A pointer to a type, with its stars. -/
structure Ref (τ : Type) where
  stars : ℕ := 0
  type : τ

/-- A field of a struct, under the name it has in JSON. -/
structure Field (τ : Type) where
  name : String
  type : Ref τ

/-- What a type is made of. The keys of a map are kept as the texts they are written as, and the
fields of an embedded struct are fields of the outer one. A `[]byte`, a time and a number that is
written as a string read a text in their own way. -/
inductive Shape (τ ω : Type) where
  | bool
  | string
  | int (signed : Bool) (w : Width)
  | float32
  | float64
  | any
  | slice (elem : Ref τ)
  | array (len : ℕ) (elem : Ref τ)
  | map (elem : Ref τ)
  | struct (fields : List (Field τ))
  /-- A type with a method `UnmarshalJSON`, or `json.Number`. As a function of the tree it is none
  that keeps the text itself, as `json.RawMessage` does. -/
  | custom (unmarshalJSON : Json → Option ω)

/-- The types of a program, which refer to each other by name. -/
structure Types (τ ω : Type) where
  shape : τ → Shape τ ω
  any : τ
  shape_any : shape any = .any

/-- A value of some type; `zero` is what a variable has in which nothing was stored. A map and a
struct have a value at some of their keys, or of their fields. -/
inductive Value (ω : Type) where
  | zero
  | bool (b : Bool)
  | string (s : String)
  | int (n : ℤ)
  | float (neg : Bool) (y : ℚ)
  | pointer (v : Value ω)
  | list (vs : List (Value ω))
  | fields (get : String → Option (Value ω))
  | own (v : ω)

variable {τ ω : Type}

/-- The field for a name: the one with this name, or else one that differs in case only. -/
def fieldOf (lower : String → String) (fs : List (Field τ)) (key : String) :
    Option (String × Ref τ) :=
  ((fs.find? fun f => f.name = key).or (fs.find? fun f => lower f.name = lower key)).map
    fun f => (f.name, f.type)

/-- A value behind so many pointers. -/
def pointers : ℕ → Value ω → Value ω
  | 0, v => v
  | n + 1, v => .pointer (pointers n v)

def Json.isNull : Json → Bool
  | .null => true
  | _ => false

/-- Through pointers: `null` is a nil pointer, and for any other text all of them are set. -/
def through (stars : ℕ) (j : Json) (v : Option (Value ω)) : Option (Value ω) :=
  if stars ≠ 0 ∧ j.isNull then some .zero else v.map (pointers stars)

section Unmarshal

variable (G : Types τ ω) (lower : String → String)

mutual

/-- A text read into a value of the type. -/
def unmarshal (t : τ) : Json → Option (Value ω)
  | .null =>
    match G.shape t with
    | .custom read => (read .null).map .own
    | _ => some .zero
  | .bool b =>
    match G.shape t with
    | .bool | .any => some (.bool b)
    | .custom read => (read (.bool b)).map .own
    | _ => none
  | .num l =>
    match G.shape t with
    | .int signed w => (readInt signed w l).map .int
    | .float32 => (parseFloat binary32 l).map (.float l.neg)
    | .float64 | .any => (parseFloat binary64 l).map (.float l.neg)
    | .custom read => (read (.num l)).map .own
    | _ => none
  | .str s =>
    match G.shape t with
    | .string | .any => some (.string s)
    | .custom read => (read (.str s)).map .own
    | _ => none
  | .arr es =>
    match G.shape t with
    | .slice elem => (unmarshalElems elem es.length es).map .list
    | .array len elem =>
      (unmarshalElems elem len es).map fun vs =>
        .list (vs ++ List.replicate (len - vs.length) .zero)
    | .any => (unmarshalElems { type := G.any } es.length es).map .list
    | .custom read => (read (.arr es)).map .own
    | _ => none
  | .obj ms =>
    match G.shape t with
    | .map elem =>
      (unmarshalMembers (fun k => some (k, elem)) ms).map fun vs =>
        .fields fun k => lookupLast k vs
    | .struct fs =>
      (unmarshalMembers (fieldOf lower fs) ms).map fun vs => .fields fun k => lookupLast k vs
    | .any =>
      (unmarshalMembers (fun k => some (k, { type := G.any })) ms).map fun vs =>
        .fields fun k => lookupLast k vs
    | .custom read => (read (.obj ms)).map .own
    | _ => none

def unmarshalElems (elem : Ref τ) : ℕ → List Json → Option (List (Value ω))
  | _, [] => some []
  | 0, _ :: _ => some []
  | n + 1, e :: es =>
    (through elem.stars e (unmarshal elem.type e)).bind fun v =>
      (unmarshalElems elem n es).map (v :: ·)

/-- The members for which there is a field, under the names of the fields. -/
def unmarshalMembers (field : String → Option (String × Ref τ)) :
    List (String × Json) → Option (List (String × Value ω))
  | [] => some []
  | (k, j) :: ms =>
    match field k with
    | none => unmarshalMembers field ms
    | some (name, r) =>
      (through r.stars j (unmarshal r.type j)).bind fun v =>
        (unmarshalMembers field ms).map ((name, v) :: ·)

end

end Unmarshal

end Microjet.Jsonx
