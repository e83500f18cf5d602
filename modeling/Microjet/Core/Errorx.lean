import Mathlib.Data.List.Sort

/-!
# Errors (`core/errorx/errors.go`)

An error of another package is a text: all the modelled code does with one is read
`Error()`. Parameter values are kept as the text `%v` prints for them.
-/

namespace Microjet.Errorx

/-- The category of an `errorx.Error`. -/
inductive ErrorType where
  | badRequest | notFound | business | unauthorized | forbidden | internal
  deriving DecidableEq, Repr

/-- The constant's value. -/
def ErrorType.text : ErrorType → String
  | .badRequest => "BAD_REQUEST"
  | .notFound => "NOT_FOUND"
  | .business => "BUSINESS"
  | .unauthorized => "UNAUTHORIZED"
  | .forbidden => "FORBIDDEN"
  | .internal => "INTERNAL"

/-- An `errorx.Error`, but for its inner error. -/
structure Info where
  type : ErrorType
  subject : String
  message : String
  params : List (String × String) := []
  code : Int := 0
  deriving DecidableEq, Repr

/-- A Go `error`: an `*errorx.Error` without or with an `Inner`, or anything else, by its text. -/
inductive Err where
  | errorx (info : Info)
  | caused (info : Info) (inner : Err)
  | other (text : String)
  deriving DecidableEq, Repr

/-- `NewInternalError` -/
def newInternalError (subject message : String)
    (params : List (String × String) := []) : Err :=
  .errorx { type := .internal, subject, message, params }

/-- `NewBadRequestError` -/
def newBadRequestError (subject message : String)
    (params : List (String × String) := []) : Err :=
  .errorx { type := .badRequest, subject, message, params }

/-- `ErrBadRequest`, and so on for the other sentinels. -/
def errBadRequest : Err :=
  .errorx { type := .badRequest, subject := "General", message := "Bad Request" }

def errInternal : Err :=
  .errorx { type := .internal, subject := "General", message := "Internal" }

def errUnauthorized : Err :=
  .errorx { type := .unauthorized, subject := "General", message := "Unauthorized" }

def errForbidden : Err :=
  .errorx { type := .forbidden, subject := "General", message := "Forbidden" }

/-- Change the own fields of an `errorx.Error`. -/
def Err.mapInfo (f : Info → Info) : Err → Err
  | .errorx info => .errorx (f info)
  | .caused info inner => .caused (f info) inner
  | .other text => .other text

/-- `WithInner`: the cause, in place of another. -/
def Err.withInner (e inner : Err) : Err :=
  match e with
  | .errorx info => .caused info inner
  | .caused info _ => .caused info inner
  | .other text => .other text

/-- `WithSubject` -/
def Err.withSubject (e : Err) (subject : String) : Err :=
  e.mapInfo fun info => { info with subject }

/-- `WithMessage` -/
def Err.withMessage (e : Err) (message : String) : Err :=
  e.mapInfo fun info => { info with message }

/-- `WithParams`: the new pairs replace the old ones of the same key. -/
def Err.withParams (e : Err) (params : List (String × String)) : Err :=
  e.mapInfo fun info =>
    { info with
      params := info.params.filter (fun p => !params.any (·.1 == p.1)) ++ params }

/-- The text without the cause: category, subject, message, and the parameters in key order. -/
def Info.text (info : Info) : String :=
  (info.params.insertionSort (fun p q => p.1 ≤ q.1)).foldl
    (fun s p => s ++ ", " ++ p.1 ++ "=" ++ p.2)
    ("[" ++ info.type.text ++ "] Subject: " ++ info.subject ++ ", Message: " ++
      info.message)

/-- `Error()` -/
def Err.error : Err → String
  | .errorx info => info.text
  | .caused info inner => info.text ++ ", inner=" ++ inner.error
  | .other text => text

/-- `GetErrorType`, of an `errorx.Error` only. -/
def Err.getErrorType : Err → Option ErrorType
  | .errorx info => some info.type
  | .caused info _ => some info.type
  | .other _ => none

/-- `IsErrorTypeEqual` -/
def Err.isErrorTypeEqual (e : Err) (t : ErrorType) : Bool := e.getErrorType = some t

/-- `IsNotFoundError` -/
def Err.isNotFoundError (e : Err) : Bool := e.isErrorTypeEqual .notFound

end Microjet.Errorx
