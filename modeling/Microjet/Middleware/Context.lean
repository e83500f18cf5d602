import Microjet.Middleware.Idempotency

/-!
# What is read from the context (`httpx/middleware/tenant.go`, `jwt.go`)
-/

namespace Microjet.Middleware

open Errorx Dynamo

/-- What is under the key of the tenant's id. -/
inductive TenantValue where
  | uuid (id : UUID)
  | other
  deriving DecidableEq

/-- A JSON value. -/
inductive Claim where
  | string (s : GoString)
  | other
  deriving DecidableEq

/-- `jwt.MapClaims` -/
abbrev MapClaims := GoMap Claim

/-- The id from the Tenant middleware and the claims from the JWT one. -/
structure Context where
  tenantID : Option TenantValue
  claims : Option MapClaims

/-- `errorx.ErrNotFound` -/
def errNotFound : Err :=
  .errorx { type := .notFound, subject := "General", message := "Not Found" }

/-- `GetTenantID` -/
def getTenantID (c : Context) : Except Err UUID :=
  match c.tenantID with
  | none => .error errNotFound
  | some (.uuid id) => .ok id
  | some .other => .error (errInternal.withMessage "tenant ID in context has unexpected type")

/-- `GetSubject` -/
def MapClaims.getSubject (claims : MapClaims) : Except Err GoString :=
  match claims.get (bytes "sub") with
  | none => .ok []
  | some (.string s) => .ok s
  | some .other => .error (.other "sub is invalid")

/-- The subject of the claims. -/
def Context.subject (c : Context) : Option GoString :=
  c.claims.map fun claims => claims.getSubject.toOption.getD []

/-- Who the request is from. -/
def Context.caller (c : Context) : Caller := ⟨(getTenantID c).toOption, c.subject⟩

end Microjet.Middleware
