import Microjet.Core.ErrorTree
import Microjet.Core.Strconv

/-!
# Validation errors (`httpx/validation.go`)
-/

namespace Microjet.Httpx

open Errorx Strconv

/-- `validator.FieldError`: `Field` is the last name of its path. -/
structure FieldError where
  parents : List GoString
  field : GoString
  tag : GoString
  param : GoString
  deriving DecidableEq

/-- `Namespace` -/
def FieldError.path (fe : FieldError) : List GoString × GoString := (fe.parents, fe.field)

/-- `json.UnmarshalTypeError` -/
structure UnmarshalTypeError where
  field : GoString
  typeString : GoString

/-- An error of `ShouldBindJSON`: what `errors.AsType` finds in it, and `Error()`. -/
structure BindError where
  validation : Option (List FieldError)
  unmarshalType : Option UnmarshalTypeError
  text : GoString

section

variable (isPrint : Nat → Bool)

/-- `validationMessage` -/
def validationMessage (fe : FieldError) : GoString :=
  if fe.tag = bytes "required" then bytes "is required"
  else if fe.tag = bytes "email" then bytes "must be a valid email address"
  else if fe.tag = bytes "min" then bytes "must be at least " ++ fe.param
  else if fe.tag = bytes "max" then bytes "must be at most " ++ fe.param
  else if fe.tag = bytes "len" then bytes "must have length " ++ fe.param
  else if fe.tag = bytes "oneof" then bytes "must be one of: " ++ fe.param
  else if fe.tag = bytes "uuid" ∨ fe.tag = bytes "uuid4" then bytes "must be a valid UUID"
  else if fe.tag = bytes "gt" then bytes "must be greater than " ++ fe.param
  else if fe.tag = bytes "gte" then bytes "must be greater than or equal to " ++ fe.param
  else if fe.tag = bytes "lt" then bytes "must be less than " ++ fe.param
  else if fe.tag = bytes "lte" then bytes "must be less than or equal to " ++ fe.param
  else if fe.param ≠ [] then
    bytes "failed " ++ quote isPrint fe.tag ++ bytes " validation (" ++ fe.param ++ bytes ")"
  else bytes "failed " ++ quote isPrint fe.tag ++ bytes " validation"

/-- One turn of the loop. -/
def setField (fields : GoMap GoString) (fe : FieldError) : GoMap GoString :=
  fields.insert fe.field (validationMessage isPrint fe)

/-- The map of reasons. -/
def fieldReasons (verrs : List FieldError) : GoMap GoString :=
  verrs.foldl (setField isPrint) GoMap.empty

/-- A bad request with these params. -/
def badRequestWith (message : GoString) (params : List (String × GoMap GoString)) :
    Fields (GoMap GoString) where
  type := ErrorType.badRequest.text
  subject := "General"
  message := GoString.text message
  params := params

/-- `ValidationError` -/
def validationError (err : BindError) : Fields (GoMap GoString) :=
  match err.validation with
  | some verrs =>
    badRequestWith (bytes "Validation failed") [("fields", fieldReasons isPrint verrs)]
  | none =>
    match err.unmarshalType with
    | some typeErr =>
      let field := if typeErr.field = [] then bytes "body" else typeErr.field
      badRequestWith
        (bytes "Invalid type for field " ++ quote isPrint field ++ bytes ": expected " ++
          typeErr.typeString) []
    | none => badRequestWith (bytes "Invalid body: " ++ err.text) []

end

end Microjet.Httpx
