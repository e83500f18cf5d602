import Microjet.Core.ErrorTree
import Microjet.Lib.Wrapped

/-!
# The errors of a write (`aws/dynamo/errors.go`, `transaction.go`)

What the SDK returns is an error with all it wraps, in which `mapWriteError` looks for two
exceptions by their types. An exception keeps its text and its reasons, an `*errorx.Error` its
fields, since `errors.Is` and `errors.As` look for these in the result. No type of the SDK has
an `Is` method that knows of an `*errorx.Error`.
-/

namespace Microjet.Dynamo

/-- `types.CancellationReason` -/
structure CancellationReason where
  code : String
  message : String

/-- What `mapCancellation` writes about item `i`, if it failed. -/
def CancellationReason.text (r : CancellationReason) (i : Nat) : Option String :=
  if r.code = "" ∨ r.code = "None" then none
  else if r.message ≠ "" then some ("item " ++ toString i ++ ": " ++ r.code ++ ": " ++ r.message)
  else some ("item " ++ toString i ++ ": " ++ r.code)

end Microjet.Dynamo

namespace Microjet.Dynamo.Errors

open Errorx

/-- A value in `Params`: one of those that are put there here, or another. -/
inductive Param (α : Type) where
  | strings (ss : List String)
  | int (n : Int)
  | other (x : α)

/-- An error without what it wraps. -/
inductive Node (α : Type) where
  | errorx (e : Fields (Param α))
  | conditionalCheckFailed (text : String)
  | transactionCanceled (text : String) (reasons : List CancellationReason)
  | other (text : String)

variable {α : Type}

/-- An error with what it wraps. -/
abbrev Error (α : Type) := Wrapped.Tree (Node α)

/-- The fields of an `*errorx.Error`. -/
def Node.fields : Node α → Option (Fields (Param α))
  | .errorx e => some e
  | _ => none

/-- It is a `*ConditionalCheckFailedException`. -/
def Node.isConditionalCheckFailed : Node α → Bool
  | .conditionalCheckFailed _ => true
  | _ => false

/-- The reasons of a `*TransactionCanceledException`. -/
def Node.reasons : Node α → Option (List CancellationReason)
  | .transactionCanceled _ reasons => some reasons
  | _ => none

/-! ### Package `errors` -/

/-- `errors.As` for the first exception. -/
def asConditionalCheckFailed (err : Error α) : Bool := err.any Node.isConditionalCheckFailed

/-- `errors.As` for the second. -/
def asTransactionCanceled (err : Error α) : Option (Error α × List CancellationReason) :=
  err.find fun e => e.own.reasons.map (e, ·)

/-- `errors.Is` -/
def isError (target : Fields (Param α)) (err : Error α) : Bool :=
  err.any fun own => own.fields.any (Fields.is · target)

/-- `errorx.GetErrorType` -/
def getErrorType (err : Error α) : Option String :=
  (err.find fun e => e.own.fields).map Fields.type

/-! ### Package `errorx` -/

/-- `errorx.NewError` -/
def newError (type : ErrorType) (subject message : String)
    (params : List (String × Param α) := []) : Fields (Param α) :=
  { type := type.text, subject, message, params }

/-- `errorx.ErrInternal` -/
def errInternal : Fields (Param α) := newError .internal "General" "Internal"

/-- `WithParam` -/
def withParam (e : Fields (Param α)) (key : String) (value : Param α) : Fields (Param α) :=
  { e with params := e.params.filter (·.1 ≠ key) ++ [(key, value)] }

/-- `WithInner` -/
def withInner (e : Fields (Param α)) (inner : Error α) : Error α := .node (.errorx e) [inner]

/-- The code of a condition that failed. -/
def conditionalCheckFailedCode : String := "ConditionalCheckFailed"

/-- `ErrConditionFailed` -/
def errConditionFailed : Fields (Param α) :=
  newError .business "dynamo" "condition check failed"

/-- The two variables of the loop of `mapCancellation`. -/
structure Seen where
  reasons : List String := []
  conditionFailed : Bool := false

/-- One turn of it. -/
def Seen.visit (s : Seen) (item : CancellationReason × Nat) : Seen :=
  match item.1.text item.2 with
  | none => s
  | some text =>
    { reasons := s.reasons ++ [text]
      conditionFailed := s.conditionFailed || item.1.code = conditionalCheckFailedCode }

/-- `mapCancellation` -/
def mapCancellation (canceled : Error α) (reasons : List CancellationReason) : Error α :=
  let seen := reasons.zipIdx.foldl Seen.visit {}
  if seen.conditionFailed then
    withInner (withParam errConditionFailed "reasons" (.strings seen.reasons)) canceled
  else
    withInner (newError .internal "dynamo" "transaction cancelled"
      [("reasons", .strings seen.reasons)]) canceled

/-- `mapWriteError` -/
def mapWriteError (err : Error α) : Error α :=
  if asConditionalCheckFailed err then withInner errConditionFailed err
  else
    match asTransactionCanceled err with
    | some (canceled, reasons) => mapCancellation canceled reasons
    | none => withInner errInternal err

/-! ### Transactions -/

/-- `maxTransactItems` -/
def maxTransactItems : Nat := 100

/-- `TransactWrite` -/
def transactWrite {ι : Type} (send : List ι → Option (Error α)) (items : List ι) :
    Option (Error α) :=
  if items.length = 0 then none
  else if maxTransactItems < items.length then
    some (.node (.errorx (newError .badRequest "dynamo"
      "transaction exceeds the DynamoDB item limit"
      [("items", .int items.length), ("limit", .int maxTransactItems)])) [])
  else (send items).map mapWriteError

end Microjet.Dynamo.Errors
