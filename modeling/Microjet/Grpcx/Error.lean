import Microjet.Core.ErrorTree

/-!
# Errors over gRPC (`grpcx/interceptors/error.go`)

`TranslateError` turns what a handler returns into a status, or lets it through when it
carries one. `fromError` and `fromContextError` are what the gRPC library does.
-/

namespace Microjet.Grpcx

open Errorx

namespace Codes

def canceled : Nat := 1
def unknown : Nat := 2
def invalidArgument : Nat := 3
def deadlineExceeded : Nat := 4
def notFound : Nat := 5
def permissionDenied : Nat := 7
def failedPrecondition : Nat := 9
def internal : Nat := 13
def unauthenticated : Nat := 16

end Codes

/-- `codeForType` -/
def codeForType (type : String) : Nat :=
  if type = ErrorType.badRequest.text then Codes.invalidArgument
  else if type = ErrorType.notFound.text then Codes.notFound
  else if type = ErrorType.business.text then Codes.failedPrecondition
  else if type = ErrorType.unauthorized.text then Codes.unauthenticated
  else if type = ErrorType.forbidden.text then Codes.permissionDenied
  else Codes.internal

variable {α : Type} (sprint : α → String)

/-- `status.FromError`: the status of the error itself, or of one it wraps with the text of
the whole. -/
def fromError (err : ErrorTree α) : Option Status :=
  match err with
  | .other ⟨_, some status, _⟩ _ => status
  | err => err.asStatus.bind fun status => status.map ({ · with message := err.error sprint })

/-- `status.FromContextError` -/
def fromContextError (err : ErrorTree α) : Status :=
  if err.isContext .deadlineExceeded then ⟨Codes.deadlineExceeded, err.error sprint⟩
  else if err.isContext .canceled then ⟨Codes.canceled, err.error sprint⟩
  else ⟨Codes.unknown, err.error sprint⟩

/-- What the interceptor returns: a status, or the handler's error as it was. -/
inductive Translated (α : Type) where
  | status (s : Status)
  | unchanged (err : ErrorTree α)

/-- `TranslateError` -/
def translateError (debug : Bool) : Option (ErrorTree α) → Option (Translated α)
  | none => none
  | some err =>
    match err.asErrorx with
    | some v =>
      let code := codeForType v.fields.type
      let msg :=
        if code = Codes.internal ∧ debug = false then "internal error" else v.fields.message
      some (.status ⟨code, msg⟩)
    | none =>
      if (fromError sprint err).isSome then some (.unchanged err)
      else if err.isContext .canceled || err.isContext .deadlineExceeded then
        some (.status (fromContextError sprint err))
      else if debug then some (.status ⟨Codes.internal, err.error sprint⟩)
      else some (.status ⟨Codes.internal, "internal error"⟩)

end Microjet.Grpcx
