import Microjet.Core.Strconv
import Microjet.Dynamo.Uuid
import Microjet.Middleware.Gin
import Microjet.Tenant.Cache

/-!
# The tenant middleware (`httpx/middleware/tenant.go`)

The tenant is named by the query parameter whose name is `tenantid` in lower case, or by a
header. A `range` over the query visits the names in any order, which is an argument.
`net/url` takes at most `limit` parameters, if it has a limit, and `unicode.ToLower` is the
argument `table` beyond ASCII.
-/

namespace Microjet

/-- The UTF-8 bytes of a code point. -/
def runeBytes (n : Nat) : GoString :=
  if n < 0x80 then [n.toUInt8]
  else if n < 0x800 then [(0xC0 + n / 64).toUInt8, (0x80 + n % 64).toUInt8]
  else if 0xD800 ≤ n ∧ n < 0xE000 ∨ 0x110000 ≤ n then [0xEF, 0xBF, 0xBD]
  else if n < 0x10000 then
    [(0xE0 + n / 4096).toUInt8, (0x80 + n / 64 % 64).toUInt8, (0x80 + n % 64).toUInt8]
  else
    [(0xF0 + n / 262144).toUInt8, (0x80 + n / 4096 % 64).toUInt8, (0x80 + n / 64 % 64).toUInt8,
      (0x80 + n % 64).toUInt8]

section ToLower

variable (table : Nat → Nat)

/-- `strings.Map(unicode.ToLower, s)`, with `k` bytes of a character still to come. -/
def mapLowerFrom : Nat → GoString → GoString
  | _, [] => []
  | 0, b :: rest =>
    if b < 0x80 then Dynamo.lower b :: mapLowerFrom 0 rest
    else
      match Utf8.runeWidth (b :: rest) with
      | 0 => runeBytes (table 0xFFFD) ++ mapLowerFrom 0 rest
      | w + 1 =>
        runeBytes (table (Strconv.runeValue (b :: rest.take w))) ++ mapLowerFrom w rest
  | k + 1, _ :: rest => mapLowerFrom k rest

/-- `strings.ToLower` -/
def toLower (s : GoString) : GoString :=
  if s.all (· < 0x80) then s.map Dynamo.lower else mapLowerFrom table 0 s

end ToLower

/-! ### Package `net/url` -/

/-- `url.QueryUnescape` -/
def queryUnescape : GoString → Option GoString
  | [] => some []
  | c :: s =>
    if c = 37 then
      match s with
      | hi :: lo :: rest => do
          let b ← Dynamo.xtob hi lo
          let bs ← queryUnescape rest
          return b :: bs
      | _ => none
    else do
      let bs ← queryUnescape s
      return (if c = 43 then 32 else c) :: bs

/-- One parameter of a query. -/
def queryParam (part : GoString) : Option (GoString × GoString) :=
  if part.contains 59 || part.isEmpty then none
  else do
    let key ← queryUnescape (cutBefore 61 part)
    let value ← queryUnescape (part.drop ((cutBefore 61 part).length + 1))
    return (key, value)

/-- All of them. -/
def queryParams (limit : Option Nat) (query : GoString) : List (GoString × GoString) :=
  if limit.any fun n => n < query.count 38 + 1 then []
  else (split 38 query).filterMap queryParam

/-- `url.Values` -/
abbrev Values := GoMap (List GoString)

/-- `Add` -/
def Values.add (m : Values) (p : GoString × GoString) : Values :=
  m.insert p.1 ((m.get p.1).getD [] ++ [p.2])

/-- `url.ParseQuery`, as `Query` calls it. -/
def parseQuery (limit : Option Nat) (query : GoString) : Values :=
  (queryParams limit query).foldl Values.add GoMap.empty

namespace Middleware

open Errorx Gin Dynamo

/-- `tenantIDQueryParamLower` -/
def tenantIDQueryParamLower : GoString := bytes "tenantid"

/-- `X-Tenant-ID`, in the canonical form in which `Header.Get` looks for it. -/
def tenantIDHeaderKey : GoString := bytes "X-Tenant-Id"

/-- What the middleware reads. -/
structure TenantRequest where
  rawQuery : GoString
  header : Header

/-- `tenant.Base` -/
structure Base where
  id : UUID
  isActive : Bool

section Tenant

variable (table : Nat → Nat)

/-- The loop over the query. -/
def findTenantParam : List (GoString × List GoString) → Option GoString
  | [] => none
  | (name, values) :: order =>
    if toLower table name = tenantIDQueryParamLower ∧ 0 < values.length then values.head?
    else findTenantParam order

/-- `extractTenantID`, with the order in which the query is visited. -/
def extractTenantID (order : List (GoString × List GoString)) (header : Header) : GoString :=
  (findTenantParam table order).getD (header.get tenantIDHeaderKey)

/-- `Tenant`: the tenant and the id that the context gets, or the error of the abort. -/
def tenant {τ : Type} (asBase : τ → Base) (findTenant : UUID → Tenant.Answer τ)
    (order : List (GoString × List GoString)) (header : Header) : Except Err (τ × UUID) :=
  match parseUUID (extractTenantID table order header) with
  | .error _ => .error errUnauthorized
  | .ok tenantID =>
    match findTenant tenantID with
    | ⟨_, some err⟩ => .error err
    | ⟨none, none⟩ =>
      .error (errUnauthorized.withParams [("tenantId", GoString.text tenantID.string)])
    | ⟨some t, none⟩ =>
      if (asBase t).isActive then .ok (t, (asBase t).id)
      else .error (errForbidden.withParams [("tenantId", GoString.text tenantID.string)])

end Tenant

end Middleware

end Microjet
