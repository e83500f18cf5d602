import Microjet.Dynamo.Query

/-!
# Writing an item (`aws/dynamo/tag.go`, `table.go`, `update.go`)

Before an item is written its timestamps are set and its derived attributes are computed, in
the item itself. A write that fails may have changed the item, so the functions return it
along with how they ended. The SDK and reflection are parameters. The maps `setNames` and
`removeNames` are read in the order of the names, so they are sorted lists here.
-/

namespace Microjet.Dynamo

open Errorx

/-- What reflection does with a value of one of the other types. -/
structure Reflect (ν : Type) where
  isZero : TypeDesc → ν → Bool
  /-- The value of an interface type is a `Timestamp`. -/
  holdsTimestamp : TypeDesc → ν → Bool
  /-- The value of a type of kind string after `SetString`. -/
  ofString : TypeDesc → GoString → ν
  /-- The value after `Set` with a `time.Time`, and with a `Timestamp`. -/
  ofTime : TypeDesc → Int → ν
  ofTimestamp : TypeDesc → Int → ν

section Fields

variable {ν : Type} (refl : Reflect ν)

/-- `IsZero` -/
def Value.isZero : Value ν → Bool
  | .string s => s = []
  | .uuid u => u.bytes.all (· = 0)
  | .other d x => refl.isZero d x

/-- `SetString` -/
def Handle.setString (h : Handle ν) (s : GoString) : Out (Handle ν) :=
  if !h.accessible then .panic
  else
    match h.value with
    | .string _ => .ok { h with value := .string s }
    | .uuid _ => .panic
    | .other d _ =>
      if d.stringKind then .ok { h with value := .other d (refl.ofString d s) } else .panic

/-- `Set` with the time in the type that the field's value calls for. -/
def Handle.setTime (h : Handle ν) (now : Int) : Out (Handle ν) :=
  if !h.accessible then .panic
  else
    match h.value with
    | .string _ => .panic
    | .uuid _ => .panic
    | .other d x =>
      if d.timestamp || refl.holdsTimestamp d x then
        .ok { h with value := .other d (refl.ofTimestamp d now) }
      else if d.acceptsTime then .ok { h with value := .other d (refl.ofTime d now) }
      else .panic

/-- `v.Field(i)`, where `v` is the struct itself only when there are no pointers. -/
def fieldOf (pointers : Nat) (v : Nat → Handle ν) (i : Nat) : Out (Handle ν) :=
  if pointers ≠ 0 then .panic else .ok (v i)

/-- One round of `applyTimestamps`; a field with both options is set twice. -/
def stampField (pointers : Nat) (isUpdate : Bool) (now : Int) (v : Nat → Handle ν)
    (fm : FieldMeta) : Out (Nat → Handle ν) := do
  let field ← fieldOf pointers v fm.structIndex
  if !field.accessible then return v
  if (fm.autoCreate && !isUpdate && field.value.isZero refl) || fm.autoUpdate then
    let field ← field.setTime refl now
    return Function.update v fm.structIndex field
  else return v

/-- `applyTimestamps` -/
def applyTimestamps (pointers : Nat) (isUpdate : Bool) (now : Int) :
    List FieldMeta → (Nat → Handle ν) → Out (Nat → Handle ν)
  | [], v => .ok v
  | fm :: fms, v => do
      let v ← stampField refl pointers isUpdate now v fm
      applyTimestamps pointers isUpdate now fms v

variable (text : TextMethods ν)

/-- One turn of the loop of `applyDerived`. -/
def deriveField (pointers : Nat) (v : Nat → Handle ν) (fm : FieldMeta) :
    Out (Nat → Handle ν) := do
  let field ← fieldOf pointers v fm.structIndex
  if !field.accessible then return v
  let s ← fm.encode text v
  let field ← field.setString refl s
  return Function.update v fm.structIndex field

/-- `applyDerived` -/
def applyDerived (pointers : Nat) :
    List FieldMeta → (Nat → Handle ν) → (Nat → Handle ν) × Out Unit
  | [], v => (v, .ok ())
  | fm :: fms, v =>
    match deriveField refl text pointers v fm with
    | .ok v => applyDerived pointers fms v
    | .error err => (v, .error err)
    | .panic => (v, .panic)

end Fields

/-! ## Put and Update -/

/-- What the SDK does for a write: it marshals the item and builds an update expression. -/
structure WriteSdk (ν φ ε : Type) where
  marshalMap : (Nat → Handle ν) → Except Err (GoMap AttributeValue)
  build : List (GoString × AttributeValue) → List GoString → Option φ → Except Err ε

/-- `UpdateSpec` -/
structure UpdateSpec (φ : Type) where
  set : List GoString
  remove : List GoString
  condition : Option φ

/-- What `buildUpdate` returns. -/
structure UpdateRequest (ε : Type) where
  key : GoString × GoString
  expr : ε

section Writes

variable {ν φ ε : Type} (refl : Reflect ν) (text : TextMethods ν) (sdk : WriteSdk ν φ ε)
  (pointers : Nat) (tags : StructMeta)

/-- What every write begins with; the key is that of the item after it. -/
def prepareWrite (isUpdate : Bool) (now : Int) (v : Nat → Handle ν) :
    (Nat → Handle ν) × Out (GoString × GoString) :=
  match applyTimestamps refl pointers isUpdate now tags.autoFields v with
  | .error err => (v, .error err)
  | .panic => (v, .panic)
  | .ok v =>
    match applyDerived refl text pointers tags.derivedFields v with
    | (v, .error err) => (v, .error (errInternal.withInner err))
    | (v, .panic) => (v, .panic)
    | (v, .ok ()) => (v, buildKey text tags v)

/-- `marshalItem` -/
def marshalItem (now : Int) (v : Nat → Handle ν) :
    (Nat → Handle ν) × Out (GoMap AttributeValue) :=
  let (v, key) := prepareWrite refl text pointers tags false now v
  (v, do
    let key ← key
    match sdk.marshalMap v with
    | .error err => .error (errInternal.withInner err)
    | .ok av => .ok ((av.insert (bytes "PK") (.s key.1)).insert (bytes "SK") (.s key.2)))

/-- The names to set. -/
def setNames (spec : UpdateSpec φ) : List GoString :=
  ((spec.set ++ (tags.autoFields.filter fun fm => fm.autoUpdate && fm.attrName ≠ []).map
    FieldMeta.attrName).dedup).insertionSort (· ≤ ·)

/-- The names to remove. -/
def removeNames (spec : UpdateSpec φ) : List GoString :=
  spec.remove.dedup.insertionSort (· ≤ ·)

/-- `buildUpdate`: nothing is sent when nothing changes. -/
def buildUpdate (spec : UpdateSpec φ) (now : Int) (v : Nat → Handle ν) :
    (Nat → Handle ν) × Out (Option (UpdateRequest ε)) :=
  match spec.remove.find? (setNames tags spec).contains with
  | some name =>
    (v, .error (newBadRequestError "dynamo"
      "attribute cannot be both SET and REMOVEd in one update"
      [("attribute", GoString.text name)]))
  | none =>
    let (v, key) := prepareWrite refl text pointers tags true now v
    (v, do
      let key ← key
      match sdk.marshalMap v with
      | .error err => .error (errInternal.withInner err)
      | .ok av =>
        let sets := (setNames tags spec).filterMap fun name => (av.get name).map (name, ·)
        if sets = [] ∧ removeNames spec = [] then return none
        else
          match sdk.build sets (removeNames spec) spec.condition with
          | .error err => .error (errInternal.withInner err)
          | .ok expr => return some ⟨key, expr⟩)

end Writes

end Microjet.Dynamo
