import Microjet.Dynamo.Errors
import Microjet.Dynamo.Write

/-!
# Sending an update (`aws/dynamo/update.go`)

`UpdateWith` sends what `buildUpdate` has made of the item, if anything. `buildUpdate` gives
each name to `expression.Name`, which reads a dot and a bracketed index in it as a path. What
the server does is said of plain names only.
-/

namespace Microjet.Dynamo

open Errorx

/-! ## The server -/

/-- An item of the server. -/
abbrev Attributes := GoString → Option AttributeValue

/-- The table the server keeps. -/
abbrev Store := GoString × GoString → Option Attributes

/-- `UpdateItemInput` -/
structure UpdateItemInput (ε : Type) where
  tableName : GoString
  key : GoString × GoString
  expr : ε

/-- The server. -/
structure Server (ε α : Type) where
  updateItem : UpdateItemInput ε → Store → Except (Errors.Error α) Unit × Store

/-- The item that has only a key. -/
def keyAttributes (key : GoString × GoString) : Attributes := fun name =>
  if name = bytes "PK" then some (.s key.1)
  else if name = bytes "SK" then some (.s key.2)
  else none

/-- What an update expression does to an item. -/
def applyClauses (sets : List (GoString × AttributeValue)) (removes : List GoString)
    (old : Attributes) : Attributes := fun name =>
  if removes.contains name then none else (sets.lookup name).or (old name)

/-- A name that `expression.Name` takes for one attribute: it has no `.` and no `[`. -/
def PlainName (name : GoString) : Prop := 46 ∉ name ∧ 91 ∉ name

/-- The server applies the clauses of an expression, to the item of the key or to a new one. -/
structure WriteSdk.Applies {ν φ ε α : Type} (sdk : WriteSdk ν φ ε) (server : Server ε α) :
    Prop where
  applies : ∀ sets removes cond expr tableName key store store',
    (∀ p ∈ sets, PlainName p.1) → (∀ name ∈ removes, PlainName name) →
    sdk.build sets removes cond = .ok expr →
    server.updateItem ⟨tableName, key, expr⟩ store = (.ok (), store') →
    store' = Function.update store key
      (some (applyClauses sets removes ((store key).getD (keyAttributes key))))

/-! ## UpdateWith -/

section Updates

variable {ν φ ε α : Type} (refl : Reflect ν) (text : TextMethods ν) (sdk : WriteSdk ν φ ε)
  (server : Server ε α) (pointers : Nat) (tags : StructMeta) (tableName : GoString)

/-- The item, whether a request was sent, the table, and the error of `buildUpdate` or the write. -/
structure Updated (ν α : Type) where
  item : Nat → Handle ν
  sent : Bool
  store : Store
  result : Out (Option (Errors.Error α))

/-- `UpdateWith` -/
def updateWith (spec : UpdateSpec φ) (now : Int) (v : Nat → Handle ν) (store : Store) :
    Updated ν α :=
  match buildUpdate refl text sdk pointers tags spec now v with
  | (v, .error err) => ⟨v, false, store, .error err⟩
  | (v, .panic) => ⟨v, false, store, .panic⟩
  | (v, .ok none) => ⟨v, false, store, .ok none⟩
  | (v, .ok (some req)) =>
    match server.updateItem ⟨tableName, req.key, req.expr⟩ store with
    | (.error err, store) => ⟨v, true, store, .ok (some (Errors.mapWriteError err))⟩
    | (.ok (), store) => ⟨v, true, store, .ok none⟩

/-- `Update` -/
def update (fields : List GoString) : Int → (Nat → Handle ν) → Store → Updated ν α :=
  updateWith refl text sdk server pointers tags tableName ⟨fields, [], none⟩

end Updates

end Microjet.Dynamo
