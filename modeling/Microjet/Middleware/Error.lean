import Microjet.Core.ErrorTree

/-!
# Errors over HTTP (`httpx/middleware/error.go`)

`Error` answers a request with the last error on its context; logging is left out.
-/

namespace Microjet.Middleware

open Errorx

/-- `ErrorResponse` -/
structure ErrorResponse (α : Type) where
  error : String
  subject : String
  message : String
  params : List (String × α) := []
  code : Int := 0
  innerError : Option String := none
  deriving DecidableEq, Repr

/-- The status and the fields of the JSON body. -/
structure ErrorReply (α : Type) where
  status : Nat
  response : ErrorResponse α
  deriving DecidableEq, Repr

variable {α : Type} (sprint : α → String)

/-- The answer to any other error. -/
def internalServerError : ErrorResponse α where
  error := "internal_server_error"
  subject := "Unknown"
  message := "An internal server error occurred"

/-- The answer to an `*errorx.Error`. -/
def replyTyped (debug : Bool) (v : ErrorTree.Found α) : ErrorReply α :=
  let innerError := if debug then v.inner.map (·.error sprint) else none
  let response (error : String) : ErrorResponse α :=
    { error
      subject := v.fields.subject
      message := v.fields.message
      params := v.fields.params
      code := v.fields.code
      innerError }
  if v.fields.type = ErrorType.notFound.text then ⟨404, response "not_found"⟩
  else if v.fields.type = ErrorType.badRequest.text then ⟨400, response "invalid_input"⟩
  else if v.fields.type = ErrorType.business.text then ⟨409, response "conflict"⟩
  else if v.fields.type = ErrorType.unauthorized.text then ⟨401, response "unauthorized"⟩
  else if v.fields.type = ErrorType.forbidden.text then ⟨403, response "forbidden"⟩
  else if debug then ⟨500, response "internal_server_error"⟩
  else ⟨500, internalServerError⟩

/-- The answer to an error. -/
def replyTo (debug : Bool) (err : ErrorTree α) : ErrorReply α :=
  match err.asErrorx with
  | some v => replyTyped sprint debug v
  | none =>
    ⟨500, { internalServerError with
      innerError := if debug then some (err.error sprint) else none }⟩

/-- `Error` -/
def errorHandler (debug : Bool) (errs : List (ErrorTree α)) : Option (ErrorReply α) :=
  errs.getLast?.map (replyTo sprint debug)

end Microjet.Middleware
