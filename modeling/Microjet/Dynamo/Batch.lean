import Microjet.Dynamo.Query
import Microjet.Lib.Chunks

/-!
# Fetching many items (`aws/dynamo/table.go`)

`BatchGet` asks for up to 100 keys at a time, and again for what the server has left
unprocessed. The server may leave keys for ever, so the rounds for one chunk have fuel. Its
answers may be different in every request, so it is told how many there were.
-/

namespace Microjet.Dynamo

open Errorx

/-- A partition key and a sort key. -/
abbrev Key := GoString × GoString

/-- `RequestItems` and `UnprocessedKeys`: the keys by the table. -/
abbrev RequestItems := GoMap (List Key)

/-- `BatchGetItemOutput` -/
structure BatchGetItemOutput where
  responses : GoMap (List (GoMap AttributeValue))
  unprocessedKeys : RequestItems

/-- The requests so far, and the result unless the fuel was used up. -/
structure Fetched (α : Type) where
  requests : List RequestItems
  result : Option (Out α)

section Batches

variable {t : StructType} {ν φ ε : Type} (text : TextMethods ν) (sdk : Sdk t ν φ ε)
  (table : Table t) (serve : Nat → RequestItems → Except Err BatchGetItemOutput)

/-- The keys of a chunk. -/
def buildKeys : List (Item t ν) → Out (List Key)
  | [] => .ok []
  | key :: keys => do
      let rawKey ← buildKey text table.tags (key.handles table.pointers)
      let rawKeys ← buildKeys keys
      return rawKey :: rawKeys

/-- The rounds for one chunk. -/
def fetchRounds : Nat → Nat → RequestItems → List (Nat → Handle ν) →
    Fetched (List (Nat → Handle ν))
  | fuel, n, requestItems, result =>
    if requestItems.entries = [] then ⟨[], some (.ok result)⟩
    else
      match fuel with
      | 0 => ⟨[], none⟩
      | fuel + 1 =>
        match serve n requestItems with
        | .error err => ⟨[requestItems], some (.error (errInternal.withInner err))⟩
        | .ok res =>
          match unmarshalItems text sdk table
            (res.responses.entries.map Prod.snd).flatten with
          | .error err => ⟨[requestItems], some (.error err)⟩
          | .panic => ⟨[requestItems], some .panic⟩
          | .ok items =>
            let rest := fetchRounds fuel (n + 1) res.unprocessedKeys (result ++ items)
            ⟨requestItems :: rest.requests, rest.result⟩

/-- The chunks in turn. -/
def fetchChunks (fuel : Nat) : Nat → List (List (Item t ν)) → List (Nat → Handle ν) →
    Fetched (List (Nat → Handle ν))
  | _, [], result => ⟨[], some (.ok result)⟩
  | n, chunk :: chunks, result =>
    match buildKeys text table chunk with
    | .error err => ⟨[], some (.error err)⟩
    | .panic => ⟨[], some .panic⟩
    | .ok rawKeys =>
      let fetched := fetchRounds text sdk table serve fuel n
        (GoMap.single table.tableName rawKeys) result
      match fetched.result with
      | some (.ok result) =>
        let rest := fetchChunks fuel (n + fetched.requests.length) chunks result
        ⟨fetched.requests ++ rest.requests, rest.result⟩
      | _ => fetched

/-- `BatchGet` -/
def Table.batchGet (fuel : Nat) (keys : List (Item t ν)) : Fetched (List (Nat → Handle ν)) :=
  fetchChunks text sdk table serve fuel 0 (Chunks.chunks 100 keys) []

end Batches

end Microjet.Dynamo
