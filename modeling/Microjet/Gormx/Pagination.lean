import Microjet.Gormx.Table

/-!
# Page requests (`gormx/pagination.go`)

`PageRequest` is the request for cursor pagination. The token holds the value of the last row
of the page before, and the next page is what compares strictly beyond it. A value is an
`Option V`, with `none` for `NULL`.
-/

namespace Microjet.Gormx

open Errorx Microjet.Types

/-- What a token holds. -/
structure PageData (V : Type) where
  lastValue : Option V

/-- A request with a cursor column, and the function that reads it from a row. -/
structure PageRequest (ρ V : Type) where
  req : PagedResultRequest
  cursorCol : String
  cursorFn : ρ → Option V
  desc : Bool

/-- How many bits an `int` has, which depends on the machine. -/
inductive IntSize where
  | w32
  | w64
  deriving DecidableEq, Repr

namespace IntSize

/-- How many values an `int` has. -/
def card : IntSize → Nat
  | w32 => 4294967296
  | w64 => 18446744073709551616

/-- The largest `int`. -/
def maxInt (s : IntSize) : Int := s.card / 2 - 1

/-- The `int` that an overflowing operation leaves. -/
def wrap (s : IntSize) (x : Int) : Int := x.bmod s.card

end IntSize

namespace PageRequest

variable {ρ V : Type}

/-- `NewPageRequest` -/
def newPageRequest (req : PagedResultRequest) (cursorCol : String)
    (cursorFn : ρ → Option V) : PageRequest ρ V :=
  { req, cursorCol, cursorFn, desc := false }

/-- `OrderDesc` -/
def orderDesc (r : PageRequest ρ V) : PageRequest ρ V := { r with desc := true }

/-- `OrderBy` -/
def orderBy (r : PageRequest ρ V) : String :=
  if r.desc then r.cursorCol ++ " DESC" else r.cursorCol ++ " ASC"

/-- `PageSize` -/
def pageSize (r : PageRequest ρ V) : Int :=
  if r.req.pageSize = 0 then defaultPageSize else r.req.pageSize

/-- `Offset`; `none` when no page number is set. -/
def offset (s : IntSize) (r : PageRequest ρ V) : Option Int :=
  match r.req.page with
  | none => none
  | some page =>
    let page := max page 1
    let size := r.pageSize
    if size ≤ 0 ∨ s.wrap (page - 1) > s.maxInt / size then some (-1)
    else some (s.wrap (s.wrap (page - 1) * size))

variable (json : JSON (PageData V))

/-- `CurrentPageData` -/
def currentPageData (r : PageRequest ρ V) : Except Err (Option (Cond ρ V)) := do
  match ← decodePageToken json r.req.nextPageToken with
  | none => return none
  | some data =>
    let op := if r.desc then "<" else ">"
    return some (.compare (r.cursorCol ++ " " ++ op ++ " ?") data.lastValue)

/-- `CreateNextPageToken` -/
def createNextPageToken (r : PageRequest ρ V) (items : List ρ) :
    Except Err (Option GoString) :=
  match items.getLast? with
  | none => .ok none
  | some item => encodePageToken json ⟨r.cursorFn item⟩

/-- The request as `List` sees it, on a machine with this `int`. -/
def listRequest (s : IntSize) (r : PageRequest ρ V) : ListRequest ρ V where
  currentPageData := r.currentPageData json
  createNextPageToken := r.createNextPageToken json
  pageSize := r.pageSize
  orderBy := r.orderBy
  offset := some (r.offset s)

end PageRequest

end Microjet.Gormx
