import Microjet.Core.PagedResult
import Microjet.Dynamo.Table

/-!
# Queries by page (`aws/dynamo/table.go`, `query_options.go`, `sk_condition.go`)

`QueryPage` and `QueryGSIPage` run one request and hand out the key the server has stopped at
as a token: a JSON text in base64. What the SDK, the JSON library and the server make of their
arguments is a parameter. The counting functions are left out.
-/

namespace Microjet.Dynamo

open Errorx
open Microjet.Types (JSON)

/-! ## Page tokens -/

/-- `types.AttributeValue` -/
inductive AttributeValue where
  | s (value : GoString)
  | n (value : GoString)
  | b (value : List UInt8)
  | other (type : String)
  deriving DecidableEq

/-- One key attribute inside a token; `none` is a nil pointer or slice. -/
structure PageKeyAttr where
  s : Option GoString := none
  n : Option GoString := none
  b : Option (List UInt8) := none
  deriving DecidableEq

/-- The error for a token that cannot be read. -/
def badToken (err : Err) : Err := (errBadRequest.withSubject "NextPageToken").withInner err

/-- One attribute of a token. -/
def decodeKeyAttr (name : GoString) : PageKeyAttr → Out AttributeValue
  | ⟨some s, _, _⟩ => .ok (.s s)
  | ⟨none, some n, _⟩ => .ok (.n n)
  | ⟨none, none, some b⟩ => .ok (.b b)
  | ⟨none, none, none⟩ =>
    .error (badToken (newBadRequestError "dynamo" "empty key attribute"
      [("attribute", GoString.text name)]))

/-- One attribute of a key. -/
def encodeKeyAttr (name : GoString) : AttributeValue → Out PageKeyAttr
  | .s value => .ok { s := some value }
  | .n value => .ok { n := some value }
  | .b value => .ok { b := some value }
  | .other type =>
    .error (newInternalError "dynamo" "unsupported key attribute type"
      [("attribute", GoString.text name), ("type", type)])

section Token

variable (json : JSON (GoMap PageKeyAttr))

/-- `decodePageToken` -/
def decodePageToken (token : Option GoString) : Out (Option (GoMap AttributeValue)) :=
  match token with
  | none => .ok none
  | some token =>
    match Base64.decode token with
    | none => .error (badToken (.other "illegal base64 data"))
    | some decoded =>
      match json.unmarshal decoded with
      | .error err => .error (badToken err)
      | .ok raw => do
          let startKey ← raw.traverse decodeKeyAttr
          return some startKey

/-- `encodePageToken` -/
def encodePageToken (lastKey : Option (GoMap AttributeValue)) : Out (Option GoString) :=
  match lastKey with
  | none => .ok none
  | some lastKey => do
      let raw ← lastKey.traverse encodeKeyAttr
      match json.marshal raw with
      | .error err => .error (errInternal.withInner err)
      | .ok encoded => return some (Base64.encode encoded)

end Token

/-! ## Options and conditions -/

/-- `SKCondition` -/
inductive SKCondition where
  | equals (attr val : GoString)
  | beginsWith (attr start : GoString)
  | between (attr lo hi : GoString)
  | lessThan (attr val : GoString)
  | lessThanOrEqual (attr val : GoString)
  | greaterThan (attr val : GoString)
  | greaterThanOrEqual (attr val : GoString)

/-- The key condition given to the builder. -/
structure KeyCondition where
  attr : GoString
  value : GoString
  sort : Option SKCondition

/-- `queryOptions` -/
structure QueryOptions (φ : Type) where
  descending : Bool := false
  consistent : Bool := false
  filter : Option φ := none

/-- `QueryOption` -/
abbrev QueryOption (φ : Type) := QueryOptions φ → QueryOptions φ

section Options

variable {φ : Type}

/-- `Descending` -/
def descending : QueryOption φ := fun o => { o with descending := true }

/-- `WithFilter` -/
def withFilter (cond : φ) : QueryOption φ := fun o => { o with filter := some cond }

/-- `ConsistentRead` -/
def consistentRead : QueryOption φ := fun o => { o with consistent := true }

/-- `newQueryOptions` -/
def newQueryOptions (opts : List (Option (QueryOption φ))) : QueryOptions φ :=
  opts.foldl (fun o opt => opt.elim o fun opt => opt o) {}

end Options

/-- `QueryInput` -/
structure QueryInput (ε : Type) where
  tableName : GoString
  indexName : Option GoString := none
  expression : ε
  scanIndexForward : Option Bool := none
  consistentRead : Option Bool := none
  exclusiveStartKey : Option (GoMap AttributeValue) := none
  limit : Option Int := none

/-- `QueryOutput` -/
structure QueryOutput where
  items : List (GoMap AttributeValue)
  lastEvaluatedKey : Option (GoMap AttributeValue)

/-- `applyTo` -/
def QueryOptions.applyTo {φ ε : Type} (o : QueryOptions φ) (inp : QueryInput ε) : QueryInput ε :=
  let inp := if o.descending then { inp with scanIndexForward := some false } else inp
  if o.consistent then { inp with consistentRead := some true } else inp

/-- What the SDK does: its expression builder, and unmarshalling an item and a string. -/
structure Sdk (t : StructType) (ν φ ε : Type) where
  build : KeyCondition → Option φ → Except Err ε
  unmarshalMap : GoMap AttributeValue → Except Err (Item t ν)
  unmarshalString : AttributeValue → Except Err GoString

/-- A table; the type argument is the struct behind some number of pointers. -/
structure Table (t : StructType) where
  pointers : Nat
  tableName : GoString
  tags : StructMeta

section Queries

variable {t : StructType} {ν φ ε : Type} (text : TextMethods ν) (sdk : Sdk t ν φ ε)
  (json : JSON (GoMap PageKeyAttr)) (table : Table t)

/-- `unmarshalItem` -/
def unmarshalItem (raw : GoMap AttributeValue) : Out (Nat → Handle ν) :=
  match sdk.unmarshalMap raw with
  | .error err => .error (errInternal.withInner err)
  | .ok item =>
    injectKeys text table.tags ((raw.get (bytes "PK")).map sdk.unmarshalString)
      ((raw.get (bytes "SK")).map sdk.unmarshalString) (item.handles table.pointers)

/-- The items of an answer. -/
def unmarshalItems : List (GoMap AttributeValue) → Out (List (Nat → Handle ν))
  | [] => .ok []
  | raw :: raws => do
      let item ← unmarshalItem text sdk table raw
      let items ← unmarshalItems raws
      return item :: items

/-- `buildExpression` -/
def QueryOptions.buildExpression (opts : QueryOptions φ) (keyEx : KeyCondition) : Out ε :=
  match sdk.build keyEx opts.filter with
  | .error err => .error (errInternal.withInner err)
  | .ok expr => .ok expr

/-- The input of a query on the table. -/
def tableQueryInput (pkItem : Item t ν) (skPrefix : GoString) (opts : QueryOptions φ) :
    Out (QueryInput ε) := do
  let pkStr ← (table.tags.pkField.encode text (pkItem.handles table.pointers)).mapError
    errInternal.withInner
  let keyEx : KeyCondition :=
    { attr := bytes "PK", value := pkStr,
      sort := if skPrefix ≠ [] then some (.beginsWith (bytes "SK") skPrefix) else none }
  let expr ← opts.buildExpression sdk keyEx
  return opts.applyTo { tableName := table.tableName, expression := expr }

/-- The input of a query on an index. -/
def gsiQueryInput (indexName pkAttr pkValue : GoString) (skCond : Option SKCondition)
    (opts : QueryOptions φ) : Out (QueryInput ε) :=
  if opts.consistent then
    .error (newInternalError "dynamo"
      "ConsistentRead is not supported on a global secondary index"
      [("index", GoString.text indexName)])
  else do
    let expr ← opts.buildExpression sdk { attr := pkAttr, value := pkValue, sort := skCond }
    return opts.applyTo
      { tableName := table.tableName, indexName := some indexName, expression := expr }

/-- `NewQueryPaginator(client, in).NextPage`: a limit that is not positive is not sent. -/
def nextPage (query : QueryInput ε → Except Err QueryOutput) (inp : QueryInput ε) :
    Except Err QueryOutput :=
  query { inp with limit := inp.limit.filter (0 < ·) }

/-- `queryPage` -/
def queryPage (query : QueryInput ε → Except Err QueryOutput) (inp : QueryInput ε) :
    Out (List (Nat → Handle ν) × Option GoString) :=
  match nextPage query inp with
  | .error err => .error (errInternal.withInner err)
  | .ok output => do
      let items ← unmarshalItems text sdk table output.items
      let nextToken ← encodePageToken json output.lastEvaluatedKey
      return (items, nextToken)

/-- `QueryGSIPage` -/
def Table.queryGSIPage (query : QueryInput ε → Except Err QueryOutput)
    (indexName pkAttr pkValue : GoString) (skCond : Option SKCondition) (pageSize : Int)
    (token : Option GoString) (opts : List (Option (QueryOption φ))) :
    Out (List (Nat → Handle ν) × Option GoString) := do
  let startKey ← decodePageToken json token
  let inp ← gsiQueryInput sdk table indexName pkAttr pkValue skCond (newQueryOptions opts)
  queryPage text sdk json table query
    { inp with exclusiveStartKey := startKey, limit := some pageSize }

/-- `QueryPage` -/
def Table.queryPage (query : QueryInput ε → Except Err QueryOutput) (pkItem : Item t ν)
    (skPrefix : GoString) (pageSize : Int) (token : Option GoString)
    (opts : List (Option (QueryOption φ))) : Out (List (Nat → Handle ν) × Option GoString) := do
  let inp ← tableQueryInput text sdk table pkItem skPrefix (newQueryOptions opts)
  let startKey ← decodePageToken json token
  Dynamo.queryPage text sdk json table query
    { inp with exclusiveStartKey := startKey, limit := some pageSize }

end Queries

end Microjet.Dynamo
