import Microjet.Core.PagedResult

/-!
# Listing a table (`gormx/table.go`)

A query is what gorm has been told when `Find` runs. The SQL the package writes itself is kept
as text. What a caller chains on is known by what it does to the rows, since nothing in the
package looks at it. Preloads are left out, `Unscoped` only says which rows there are, and
`DB` is the database or the transaction of the context.
-/

namespace Microjet.Gormx

open Errorx Microjet.Types

/-- A condition: of the caller, or a comparison with one placeholder. A `NULL`
argument is `none`. -/
inductive Cond (ρ V : Type) where
  | filter (keep : ρ → Bool)
  | compare (sql : String) (arg : Option V)

/-- `Group` and `Having`: when two rows are in one group, and which groups stay. -/
structure Grouping (ρ : Type) where
  same : ρ → ρ → Bool
  having : List ρ → Bool := fun _ => true

/-- The clauses of a query: `joins` is how many rows of the join a row is part of, `columns` the
row with zero values where nothing is read, `distinct` when two answers read the same. -/
structure Query (ρ V : Type) where
  wheres : List (Cond ρ V) := []
  orders : List String := []
  limit : Option Nat := none
  offset : Nat := 0
  joins : ρ → Nat := fun _ => 1
  grouping : Option (Grouping ρ) := none
  columns : ρ → ρ := id
  distinct : Option (ρ → ρ → Bool) := none
  skipLocked : Bool := false

section Builder

variable {ρ V : Type}

/-- `Where` -/
def Query.andWhere (c : Cond ρ V) (q : Query ρ V) : Query ρ V :=
  { q with wheres := q.wheres ++ [c] }

/-- `Order` -/
def Query.order (term : String) (q : Query ρ V) : Query ρ V :=
  { q with orders := q.orders ++ [term] }

/-- `Limit` -/
def Query.withLimit (n : Nat) (q : Query ρ V) : Query ρ V := { q with limit := some n }

/-- `Offset` -/
def Query.withOffset (n : Nat) (q : Query ρ V) : Query ρ V := { q with offset := n }

/-- `Find` and `Count` of the database. -/
structure DB (ρ V : Type) where
  find : Query ρ V → Except Err (List ρ)
  count : Query ρ V → Except Err Nat

/-- A table with the scopes chained on so far. -/
structure Table (ρ V : Type) where
  scopes : List (Query ρ V → Query ρ V) := []

/-- A table with one more scope. -/
def Table.withScope (scope : Query ρ V → Query ρ V) (t : Table ρ V) : Table ρ V :=
  { t with scopes := t.scopes ++ [scope] }

/-- `Where` -/
def Table.andWhere (keep : ρ → Bool) (t : Table ρ V) : Table ρ V :=
  t.withScope (Query.andWhere (.filter keep))

/-- `Omit` and `Select`: what is left of a row. -/
def Table.omit (columns : ρ → ρ) (t : Table ρ V) : Table ρ V :=
  t.withScope fun q => { q with columns }

/-- `Joins`: how often a row is repeated. -/
def Table.joins (joins : ρ → Nat) (t : Table ρ V) : Table ρ V :=
  t.withScope fun q => { q with joins }

/-- `Group` -/
def Table.group (same : ρ → ρ → Bool) (t : Table ρ V) : Table ρ V :=
  t.withScope fun q => { q with grouping := some { same } }

/-- The query with all scopes applied. -/
def Table.db (t : Table ρ V) : Query ρ V := t.scopes.foldl (fun q s => s q) {}

/-- `ListRequest`, with the optional interfaces `Scoper`, `CursorScoper` and `OffsetPager`. -/
structure ListRequest (ρ V : Type) where
  currentPageData : Except Err (Option (Cond ρ V))
  createNextPageToken : List ρ → Except Err (Option GoString)
  pageSize : Int
  orderBy : String
  scope : Option (Query ρ V → Query ρ V) := none
  cursorScope : Option (Except Err (Option (Query ρ V → Query ρ V))) := none
  offset : Option (Option Int) := none

/-- The page size of a request, checked. -/
def checkedPageSize (n : Int) : Except Err Nat :=
  if n = 0 then .ok defaultPageSize
  else if n < 0 ∨ n > maxPageSize then
    .error (errBadRequest.withMessage "page size must be between 1 and 1000")
  else .ok n.toNat

/-- The caller's scope. -/
def applyFilter (q : Query ρ V) (req : ListRequest ρ V) : Query ρ V :=
  match req.scope with
  | some scope => scope q
  | none => q

/-- The cursor of `List`: `CursorScope` when the request has one, else
`CurrentPageData`. -/
def applyCursor (q : Query ρ V) (req : ListRequest ρ V) : Except Err (Query ρ V) :=
  match req.cursorScope with
  | some cursorScope => do
      match ← cursorScope with
      | some scope => return scope q
      | none => return q
  | none => do
      match ← req.currentPageData with
      | some cursorWhere => return q.andWhere cursorWhere
      | none => return q

/-- `listByOffset` -/
def listByOffset (db : DB ρ V) (t : Table ρ V) (req : ListRequest ρ V)
    (pageSize offset : Nat) : Except Err (PagedResult ρ) := do
  let totalCount ← db.count (applyFilter t.db req)
  let items ← db.find
    (applyFilter (((t.db.order req.orderBy).withOffset offset).withLimit pageSize) req)
  return ⟨items, pageSize, totalCount, none⟩

/-- The cursor mode: one row more than the page is asked for, and a token is made if it was
there. -/
def listByCursor (db : DB ρ V) (t : Table ρ V) (req : ListRequest ρ V)
    (pageSize : Nat) : Except Err (PagedResult ρ) := do
  let q ← applyCursor
    (applyFilter ((t.db.order req.orderBy).withLimit (pageSize + 1)) req) req
  let items ← db.find q
  if pageSize < items.length then
    let nextPageToken ← req.createNextPageToken (items.take pageSize)
    return ⟨items.take pageSize, pageSize, -1, nextPageToken⟩
  else return ⟨items, pageSize, -1, none⟩

/-- `List` -/
def Table.list (db : DB ρ V) (t : Table ρ V) (req : ListRequest ρ V) :
    Except Err (PagedResult ρ) := do
  let pageSize ← checkedPageSize req.pageSize
  match req.offset with
  | some (some offset) =>
    if offset < 0 then
      .error (errBadRequest.withMessage "invalid pagination offset")
    else listByOffset db t req pageSize offset.toNat
  | some none => listByCursor db t req pageSize
  | none => listByCursor db t req pageSize

end Builder

end Microjet.Gormx
