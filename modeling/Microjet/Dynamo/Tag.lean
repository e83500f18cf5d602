import Microjet.Dynamo.Uuid

/-!
# Key patterns and struct tags (`aws/dynamo/tag.go`)

A key is built from a pattern of literals and field references. `encode` copies the literals
and inserts the fields' texts; `decode` matches the literals and reads each field up to the
next one. The patterns come from struct tags, which `buildStructMeta` parses. The cache of
parsed types is left out: it changes no result.

Values of types other than `string` and `uuid.UUID` are opaque, with the type's text methods
as an argument.
-/

namespace Microjet.Dynamo

open Errorx

/-! ## Types and values -/

/-- A type that is neither `string` nor `uuid.UUID`, and which text interfaces it implements. -/
structure TypeDesc where
  name : GoString
  stringKind : Bool
  marshals : Bool
  unmarshals : Bool
  /-- `MarshalText` panics on some value, as one with a value receiver does on a nil
  pointer. -/
  marshalPanics : Bool := false
  /-- `UnmarshalText` panics on some text, as one from an embedded pointer that is nil does. -/
  unmarshalPanics : Bool := false
  timestamp : Bool := false
  /-- A `time.Time` can be assigned to it, as to an interface type that `time.Time` implements. -/
  acceptsTime : Bool := false
  deriving DecidableEq

/-- The type of a field. -/
inductive FieldType where
  | string
  | uuid
  | other (d : TypeDesc)
  deriving DecidableEq

/-- Its name. -/
def FieldType.name : FieldType → GoString
  | .string => bytes "string"
  | .uuid => bytes "uuid.UUID"
  | .other d => d.name

/-- Its kind is `reflect.String`. -/
def FieldType.isStringKind : FieldType → Bool
  | .string => true
  | .uuid => false
  | .other d => d.stringKind

/-- `reflect.StructField`, with the two tags the package reads. -/
structure StructField where
  name : GoString
  type : FieldType
  exported : Bool := true
  dynamo : GoString := []
  dynamodbav : GoString := []
  deriving DecidableEq

/-- A struct type. -/
structure StructType where
  name : GoString
  fields : List StructField
  deriving DecidableEq

/-- A field value. Those of other types are in `ν`. -/
inductive Value (ν : Type) where
  | string (s : GoString)
  | uuid (u : UUID)
  | other (d : TypeDesc) (x : ν)
  deriving DecidableEq

/-- The type of a value. -/
def Value.type {ν : Type} : Value ν → FieldType
  | .string _ => .string
  | .uuid _ => .uuid
  | .other d _ => .other d

/-- What `v.Field(i)` gives; reading or setting it panics if it is not accessible. -/
structure Handle (ν : Type) where
  accessible : Bool
  value : Value ν
  deriving DecidableEq

/-- The text methods of the other types, and what `%v` prints. -/
structure TextMethods (ν : Type) where
  marshalText : TypeDesc → ν → Out GoString
  unmarshalText : TypeDesc → GoString → Out ν
  sprint : TypeDesc → ν → GoString

/-! ## Key formats -/

/-- `keySegment` -/
inductive KeySegment where
  | literal (s : GoString)
  | field (index : Nat)
  deriving DecidableEq

/-- `keyFormat` -/
structure KeyFormat where
  segments : List KeySegment
  deriving DecidableEq

section Codec

variable {ν : Type} (text : TextMethods ν)

/-- `MarshalText`, with the package's error. -/
def marshalText (d : TypeDesc) (x : ν) : Out GoString :=
  match text.marshalText d x with
  | .error err =>
    .error ((newInternalError "dynamo" "marshal key field failed"
      [("type", GoString.text d.name)]).withInner err)
  | .ok s => .ok s
  | .panic => .panic

/-- `fieldToString` -/
def fieldToString (h : Handle ν) : Out GoString :=
  if !h.accessible then .panic
  else
    match h.value with
    | .uuid u => .ok u.string
    | .string s => .ok s
    | .other d x =>
      if d.marshals then marshalText text d x else .ok (text.sprint d x)

/-- `setFieldFromString`: the handle after the assignment, which goes through a pointer. -/
def setFieldFromString (h : Handle ν) (s : GoString) : Out (Handle ν) :=
  if !h.accessible then .panic
  else
    match h.value with
    | .uuid _ =>
      match parseUUID s with
      | .error err =>
        .error ((newInternalError "dynamo" "parse uuid failed"
          [("value", GoString.text s)]).withInner err)
      | .ok u => .ok { h with value := .uuid u }
    | .string _ => .ok { h with value := .string s }
    | .other d _ =>
      if !d.unmarshals then
        .error (newInternalError "dynamo" "unsupported key field type"
          [("type", GoString.text d.name)])
      else
        match text.unmarshalText d s with
        | .error err =>
          .error ((newInternalError "dynamo" "parse key field failed"
            [("type", GoString.text d.name), ("value", GoString.text s)]).withInner err)
        | .ok x => .ok { h with value := .other d x }
        | .panic => .panic

/-- The loop of `encode`. -/
def encodeSegments (v : Nat → Handle ν) : List KeySegment → Out GoString
  | [] => .ok []
  | .literal s :: segs => do
      let rest ← encodeSegments v segs
      return s ++ rest
  | .field i :: segs => do
      let s ← fieldToString text (v i)
      let rest ← encodeSegments v segs
      return s ++ rest

/-- `encode` -/
def KeyFormat.encode (kf : KeyFormat) (v : Nat → Handle ν) : Out GoString :=
  encodeSegments text v kf.segments

/-- The literal that a field ends before. -/
def nextLiteral : List KeySegment → GoString
  | [] => []
  | .literal s :: _ => s
  | .field _ :: segs => nextLiteral segs

/-- The loop of `decode`. -/
def decodeSegments (raw : GoString) :
    List KeySegment → GoString → (Nat → Handle ν) → Out (Nat → Handle ν)
  | [], _, v => .ok v
  | .literal s :: segs, remaining, v =>
    if s.isPrefixOf remaining then
      decodeSegments raw segs (remaining.drop s.length) v
    else
      .error (newInternalError "dynamo" "expected prefix"
        [("prefix", GoString.text s), ("raw", GoString.text raw)])
  | .field i :: segs, remaining, v =>
    let nextLit := nextLiteral segs
    if nextLit ≠ [] then
      match Search.indexOf nextLit remaining with
      | none =>
        .error (newInternalError "dynamo" "separator not found"
          [("separator", GoString.text nextLit), ("raw", GoString.text raw)])
      | some idx => do
          let h ← setFieldFromString text (v i) (remaining.take idx)
          decodeSegments raw segs (remaining.drop idx) (Function.update v i h)
    else do
      let h ← setFieldFromString text (v i) remaining
      decodeSegments raw segs [] (Function.update v i h)

/-- `keyFormat.decode`: the struct value after it. On an error the caller drops
the value. -/
def KeyFormat.decode (kf : KeyFormat) (raw : GoString) (v : Nat → Handle ν) :
    Out (Nat → Handle ν) :=
  decodeSegments text raw kf.segments raw v

end Codec

/-! ## Parsing a pattern -/

/-- `structFieldIndex` -/
def structFieldIndex (t : StructType) (name : GoString) : Except Err Nat :=
  match t.fields.findIdx? (·.name == name) with
  | some i => .ok i
  | none =>
    .error (newInternalError "dynamo" "field not found"
      [("field", GoString.text name), ("type", GoString.text t.name)])

/-- The loop of `parseKeyFormat`: a round takes a byte at least, so these are rounds enough. -/
def parseSegments (pattern selfName : GoString) (t : StructType) :
    Nat → GoString → Except Err (List KeySegment)
  | _, [] => .ok []
  | 0, _ :: _ => .ok []
  | fuel + 1, c :: cs =>
    let rest := c :: cs
    match Search.indexOf (bytes "\x7b") rest with
    | none => .ok [.literal rest]
    | some openAt =>
      let lits := if 0 < openAt then [KeySegment.literal (rest.take openAt)] else []
      match Search.indexOf (bytes "\x7d") (rest.drop openAt) with
      | none =>
        .error (newInternalError "dynamo" "unclosed \x7b in format"
          [("format", GoString.text pattern)])
      | some closeAt =>
        let inner := (rest.drop (openAt + 1)).take (closeAt - 1)
        let name := if inner = [] then selfName else inner
        match structFieldIndex t name with
        | .error _ =>
          .error (newInternalError "dynamo" "format references unknown field"
            [("format", GoString.text pattern), ("field", GoString.text name),
              ("type", GoString.text t.name)])
        | .ok idx => do
            let segs ← parseSegments pattern selfName t fuel
              (rest.drop (openAt + closeAt + 1))
            return lits ++ .field idx :: segs

/-- `parseKeyFormat` -/
def parseKeyFormat (pattern selfName : GoString) (t : StructType) :
    Except Err KeyFormat := do
  let segments ← parseSegments pattern selfName t pattern.length pattern
  return ⟨segments⟩

/-! ## Struct tags -/

/-- `keyRole` -/
inductive KeyRole where
  | none | pk | sk
  deriving DecidableEq

/-- `fieldMeta` -/
structure FieldMeta where
  structIndex : Nat
  attrName : GoString
  keyRole : KeyRole
  format : Option KeyFormat
  autoCreate : Bool
  autoUpdate : Bool
  deriving DecidableEq

/-- `structMeta` -/
structure StructMeta where
  pkField : FieldMeta
  skField : FieldMeta
  autoFields : List FieldMeta
  derivedFields : List FieldMeta
  deriving DecidableEq

/-- `dynamoAttrName` -/
def dynamoAttrName (f : StructField) : GoString :=
  if f.dynamodbav = [] then f.name
  else
    let name := cutBefore 44 f.dynamodbav
    if name = bytes "-" then []
    else if name = [] then f.name
    else name

/-- `supportedKeyFieldType` -/
def supportedKeyFieldType : FieldType → Bool
  | .uuid => true
  | .string => true
  | .other d => d.marshals && d.unmarshals

/-- `supportedDerivedSourceType` -/
def supportedDerivedSourceType : FieldType → Bool
  | .uuid => true
  | .string => true
  | .other d => d.marshals

/-- The fields a pattern refers to. -/
def KeyFormat.refs (kf : KeyFormat) : List Nat :=
  kf.segments.filterMap fun
    | .literal _ => none
    | .field i => some i

/-- `validateKeyFields` -/
def validateKeyFields (kf : KeyFormat) (t : StructType) : Except Err Unit :=
  kf.refs.forM fun i =>
    match t.fields[i]? with
    | none => .ok ()
    | some f =>
      if supportedKeyFieldType f.type then .ok ()
      else
        .error (newInternalError "dynamo"
          "unsupported key field type: want string, uuid.UUID, or encoding.TextMarshaler+TextUnmarshaler"
          [("type", GoString.text t.name), ("field", GoString.text f.name),
            ("fieldType", GoString.text f.type.name)])

/-- `validateDerivedField` -/
def validateDerivedField (kf : KeyFormat) (t : StructType) (f : StructField)
    (selfIndex : Nat) : Except Err Unit :=
  if !f.type.isStringKind then
    .error (newInternalError "dynamo"
      "const= and format= on a non-key field require a string field"
      [("type", GoString.text t.name), ("field", GoString.text f.name),
        ("fieldType", GoString.text f.type.name)])
  else if dynamoAttrName f = [] then
    .error (newInternalError "dynamo"
      "const= and format= on a non-key field need a persisted attribute, but dynamodbav is \"-\""
      [("type", GoString.text t.name), ("field", GoString.text f.name)])
  else
    kf.refs.forM fun i =>
      if i = selfIndex then
        .error (newInternalError "dynamo"
          "a derived attribute cannot reference its own field; prefix= and \x7b\x7d are only valid on pk/sk"
          [("type", GoString.text t.name), ("field", GoString.text f.name)])
      else
        match t.fields[i]? with
        | none => .ok ()
        | some src =>
          if supportedDerivedSourceType src.type then .ok ()
          else
            .error (newInternalError "dynamo"
              "unsupported source field type: want string, uuid.UUID, or encoding.TextMarshaler"
              [("type", GoString.text t.name), ("field", GoString.text f.name),
                ("sourceField", GoString.text src.name),
                ("sourceType", GoString.text src.type.name)])

/-- What the parts of a tag have set. -/
structure TagOptions where
  keyRole : KeyRole := .none
  rawFormat : GoString := []
  prefixVal : GoString := []
  constVal : GoString := []
  autoCreate : Bool := false
  autoUpdate : Bool := false
  deriving DecidableEq

/-- One part of a tag. -/
def TagOptions.add (t : StructType) (f : StructField) (o : TagOptions)
    (part : GoString) : Except Err TagOptions :=
  let part := trimSpace part
  if part = [] then .ok o
  else if part = bytes "pk" then .ok { o with keyRole := .pk }
  else if part = bytes "sk" then .ok { o with keyRole := .sk }
  else if (bytes "format=").isPrefixOf part then .ok { o with rawFormat := part.drop 7 }
  else if (bytes "prefix=").isPrefixOf part then .ok { o with prefixVal := part.drop 7 }
  else if (bytes "const=").isPrefixOf part then .ok { o with constVal := part.drop 6 }
  else if part = bytes "auto_create" then .ok { o with autoCreate := true }
  else if part = bytes "auto_update" then .ok { o with autoUpdate := true }
  else
    .error (newInternalError "dynamo"
      "unknown dynamo tag option: want pk, sk, format=, prefix=, const=, auto_create or auto_update"
      [("type", GoString.text t.name), ("field", GoString.text f.name),
        ("option", GoString.text part)])

/-- The pattern they ask for. -/
def TagOptions.pattern (o : TagOptions) : GoString :=
  if o.rawFormat ≠ [] then o.rawFormat
  else if o.prefixVal ≠ [] then o.prefixVal ++ bytes "\x7b\x7d"
  else if o.constVal ≠ [] then o.constVal
  else if o.keyRole ≠ .none then bytes "\x7b\x7d"
  else []

/-- The pattern, parsed and checked. -/
def TagOptions.format (t : StructType) (f : StructField) (i : Nat) (o : TagOptions) :
    Except Err (Option KeyFormat) :=
  if o.pattern = [] then .ok none
  else do
    let kf ← parseKeyFormat o.pattern f.name t
    if o.keyRole ≠ .none then validateKeyFields kf t
    else validateDerivedField kf t f i
    return some kf

/-- What a tag says of its field. -/
def fieldMeta (t : StructType) (f : StructField) (i : Nat) : Except Err FieldMeta := do
  let o ← (split 44 f.dynamo).foldlM (TagOptions.add t f) {}
  let format ← o.format t f i
  return ⟨i, dynamoAttrName f, o.keyRole, format, o.autoCreate, o.autoUpdate⟩

/-- The fields seen so far. -/
structure PartialMeta where
  pkField : Option FieldMeta := none
  skField : Option FieldMeta := none
  autoFields : List FieldMeta := []
  derivedFields : List FieldMeta := []

/-- One more of them. -/
def PartialMeta.add (m : PartialMeta) (fm : FieldMeta) : PartialMeta :=
  let m :=
    match fm.keyRole with
    | .pk => { m with pkField := some fm }
    | .sk => { m with skField := some fm }
    | .none =>
      if fm.format.isSome then { m with derivedFields := m.derivedFields ++ [fm] } else m
  if fm.autoCreate || fm.autoUpdate then { m with autoFields := m.autoFields ++ [fm] } else m

/-- One turn of the loop of `buildStructMeta`. -/
def PartialMeta.visit (t : StructType) (m : PartialMeta) (fi : StructField × Nat) :
    Except Err PartialMeta :=
  if !fi.1.exported then .ok m
  else if fi.1.dynamo = [] then .ok m
  else do
    let fm ← fieldMeta t fi.1 fi.2
    return m.add fm

/-- `buildStructMeta` -/
def buildStructMeta (t : StructType) : Except Err StructMeta := do
  let m ← t.fields.zipIdx.foldlM (PartialMeta.visit t) {}
  match m.pkField with
  | none =>
    .error (newInternalError "dynamo" "no field tagged with dynamo:\"pk,...\""
      [("type", GoString.text t.name)])
  | some pkField =>
    match m.skField with
    | none =>
      .error (newInternalError "dynamo" "no field tagged with dynamo:\"sk,...\""
        [("type", GoString.text t.name)])
    | some skField => .ok ⟨pkField, skField, m.autoFields, m.derivedFields⟩

end Microjet.Dynamo
