import Microjet.Core.Errorx

/-!
# Trees of errors (`core/errorx/errors.go`)

An error may wrap others: an `*errorx.Error` has at most one `Inner`, and what anything
else unwraps to is a list. No type of the repository has an `As` method, and the `Is`
method of `*errorx.Error` is false of a context error. An `ErrorType` is any string here.
-/

namespace Microjet.Errorx

/-- A gRPC status. -/
structure Status where
  code : Nat
  message : String
  deriving DecidableEq, Repr

/-- The errors of package `context`. -/
inductive ContextError where
  | canceled
  | deadlineExceeded
  deriving DecidableEq, Repr

/-- The fields of an `*errorx.Error` besides `Inner`. -/
structure Fields (α : Type) where
  type : String
  subject : String
  message : String
  params : List (String × α) := []
  code : Int := 0
  deriving DecidableEq, Repr

/-- The text without the cause, with the parameters in key order. -/
def Fields.text {α : Type} (sprint : α → String) (e : Fields α) : String :=
  (e.params.insertionSort (fun p q => p.1 ≤ q.1)).foldl
    (fun s p => s ++ ", " ++ p.1 ++ "=" ++ sprint p.2)
    ("[" ++ e.type ++ "] Subject: " ++ e.subject ++ ", Message: " ++ e.message)

/-- The `Is` method of `*errorx.Error`. -/
def Fields.is {α : Type} (e target : Fields α) : Bool :=
  target.type = e.type && (target.code = 0 || target.code = e.code) &&
    (target.subject = "" || target.subject = "General" || target.subject = e.subject)

/-- An error that is no `*errorx.Error`, without what it wraps. -/
structure Foreign where
  text : String
  /-- What its `GRPCStatus` method returns, which may be nil, if it has one. -/
  status : Option (Option Status) := none
  context : Option ContextError := none
  deriving DecidableEq, Repr

/-- An error with what it wraps. `Params` has values of any type `α`. -/
inductive ErrorTree (α : Type) where
  | errorx (e : Fields α)
  | caused (e : Fields α) (inner : ErrorTree α)
  | other (own : Foreign) (errs : List (ErrorTree α))

namespace ErrorTree

variable {α β : Type}

mutual

/-- The walk of `errors.As` and `errors.Is`: an error before what it wraps. -/
def search (f : ErrorTree α → Option β) : ErrorTree α → Option β
  | .errorx e => f (.errorx e)
  | .caused e inner => (f (.caused e inner)).or (search f inner)
  | .other own errs => (f (.other own errs)).or (searchList f errs)

def searchList (f : ErrorTree α → Option β) : List (ErrorTree α) → Option β
  | [] => none
  | e :: es => (search f e).or (searchList f es)

end

/-- The `*errorx.Error` that `errors.As` stops at. -/
structure Found (α : Type) where
  fields : Fields α
  inner : Option (ErrorTree α)

/-- `errors.As` for an `*errorx.Error`. -/
def asErrorx : ErrorTree α → Option (Found α) :=
  search fun
    | .errorx e => some ⟨e, none⟩
    | .caused e inner => some ⟨e, some inner⟩
    | .other _ _ => none

/-- `errors.As` for an error that carries a gRPC status. -/
def asStatus : ErrorTree α → Option (Option Status) :=
  search fun
    | .other own _ => own.status
    | _ => none

/-- `errors.Is` for a context error. -/
def isContext (c : ContextError) (err : ErrorTree α) : Bool :=
  (search (fun
    | .other own _ => if own.context = some c then some () else none
    | _ => none) err).isSome

/-- `Error()`, where `sprint` is `%v`. -/
def error (sprint : α → String) : ErrorTree α → String
  | .errorx e => e.text sprint
  | .caused e inner => e.text sprint ++ ", inner=" ++ inner.error sprint
  | .other own _ => own.text

/-- `errors.Join`: nil errors are left out, and nothing is joined to nil. -/
def join (sprint : α → String) (errs : List (Option (ErrorTree α))) : Option (ErrorTree α) :=
  match errs.reduceOption with
  | [] => none
  | e :: es => some (.other { text := "\n".intercalate ((e :: es).map (error sprint)) } (e :: es))

/-- The error is in the tree, so that `errors.Is` and `errors.As` come to it. -/
inductive Within (e : ErrorTree α) : ErrorTree α → Prop where
  | self : Within e e
  | inner {own : Fields α} {inner : ErrorTree α} (h : Within e inner) :
      Within e (.caused own inner)
  | among {own : Foreign} {errs : List (ErrorTree α)} {e' : ErrorTree α} (hmem : e' ∈ errs)
      (h : Within e e') : Within e (.other own errs)

end ErrorTree

end Microjet.Errorx
