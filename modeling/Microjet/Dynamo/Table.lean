import Microjet.Dynamo.Tag

/-!
# Keys of a table (`aws/dynamo/table.go`)

`New` accepts an item type if its tags parse; `buildKey` encodes the two keys of an item and
`injectKeys` decodes them. What it finds under `PK` and `SK` is a string, no attribute, or the
error of unmarshalling something else.
-/

namespace Microjet.Dynamo

open Errorx

/-- The type argument of a table: an interface, a struct behind some pointers, or anything else. -/
inductive ItemType where
  | iface
  | struct (pointers : Nat) (t : StructType)
  | other

/-- `getStructMeta`. Asking a type that is not a struct for its fields panics. -/
def getStructMeta : ItemType → Out StructMeta
  | .iface => .error (newInternalError "dynamo" "T must not be an interface type")
  | .struct _ t => Out.ofExcept (buildStructMeta t)
  | .other => .panic

/-- `New` -/
def newTable (T : ItemType) : Out StructMeta := getStructMeta T

/-- A value of the struct type. -/
structure Item (t : StructType) (ν : Type) where
  value : Nat → Value ν
  typed : ∀ i f, t.fields[i]? = some f → (value i).type = f.type

/-- Field `i` is exported. -/
def StructType.exported (t : StructType) (i : Nat) : Bool :=
  match t.fields[i]? with
  | none => false
  | some f => f.exported

/-- `reflect.ValueOf(item).Elem()` is the struct itself only when the argument is no pointer. -/
def Item.handles {t : StructType} {ν : Type} (pointers : Nat) (item : Item t ν) :
    Nat → Handle ν := fun i =>
  ⟨pointers == 0 && t.exported i, item.value i⟩

section Keys

variable {ν : Type} (text : TextMethods ν)

/-- `fm.format.encode(v)`; a field without a format is a nil dereference. -/
def FieldMeta.encode (fm : FieldMeta) (v : Nat → Handle ν) : Out GoString :=
  match fm.format with
  | none => .panic
  | some kf => kf.encode text v

/-- `decode` -/
def FieldMeta.decode (fm : FieldMeta) (raw : GoString) (v : Nat → Handle ν) :
    Out (Nat → Handle ν) :=
  match fm.format with
  | none => .panic
  | some kf => kf.decode text raw v

/-- `buildKey` -/
def buildKey (tags : StructMeta) (v : Nat → Handle ν) : Out (GoString × GoString) := do
  let pkStr ← (tags.pkField.encode text v).mapError errInternal.withInner
  let skStr ← (tags.skField.encode text v).mapError errInternal.withInner
  return (pkStr, skStr)

/-- `injectKey` -/
def injectKey (fm : FieldMeta) (attr : Option (Except Err GoString))
    (v : Nat → Handle ν) : Out (Nat → Handle ν) :=
  match attr with
  | none => .ok v
  | some (.error err) => .error (errInternal.withInner err)
  | some (.ok raw) => (fm.decode text raw v).mapError errInternal.withInner

/-- `injectKeys` -/
def injectKeys (tags : StructMeta) (pk sk : Option (Except Err GoString))
    (v : Nat → Handle ν) : Out (Nat → Handle ν) := do
  let v ← injectKey text tags.pkField pk v
  injectKey text tags.skField sk v

end Keys

end Microjet.Dynamo
