import Mathlib.Data.Fin.Tuple.Basic
import Mathlib.Logic.Function.Basic

/-!
# Transactions (`gormx/table.go`: `txKeyFor`, `RunTx`, `WithTx`, `Table.db`)

Databases, transactions and writes are numbers; a write writes its own number, so the contents
of a database are the writes committed to it. gorm is as assumed: `Transaction` commits when
its callback returns nil and rolls back on an error or a panic; a write outside a transaction
is committed at once.

`Op` is a program over this: table writes and nested transactions on any databases, with any
context in scope, that goes on as it likes with what the calls return.
-/

namespace Microjet.Gormx.Transaction

/-! ### Pools and keys -/

/-- The pool a database was opened with, by what `db.DB()` finds. -/
structure PoolKind where
  /-- The pool is a `*sql.DB`, or has a `GetDBConn` that gives one. -/
  reports : Bool := true
  /-- What its `BeginTx` gives is a `*sql.Tx` of that, or has a `GetDBConn` that gives it. -/
  txReports : Bool := true
  deriving DecidableEq, Repr

/-- The pool of a database or of a transaction on it. -/
inductive Pool where
  | base (d : Nat)
  | tx (d t : Nat)
  deriving DecidableEq, Repr

/-- The database behind it. -/
def Pool.database : Pool → Nat
  | .base d => d
  | .tx d _ => d

/-- `*gorm.DB`: the pool it was opened with, and that of its statement. -/
structure GormDB where
  connPool : Pool
  stmtPool : Pool
  deriving DecidableEq, Repr

/-- `gorm.Open` -/
def gormOpen (d : Nat) : GormDB := ⟨.base d, .base d⟩

/-- `Begin` replaces the statement's pool. -/
def GormDB.begin (db : GormDB) (t : Nat) : GormDB :=
  { db with stmtPool := .tx db.stmtPool.database t }

/-- `DB`: the `*sql.DB` behind the statement's pool, if it can be found. -/
def GormDB.sqlDB (kinds : Nat → PoolKind) (db : GormDB) : Option Nat :=
  match db.stmtPool with
  | .base d => if (kinds d).reports then some d else none
  | .tx d _ => if (kinds d).txReports then some d else none

/-- `txKey` -/
inductive TxKey where
  | sqlDB (d : Nat)
  | pool (p : Pool)
  deriving DecidableEq, Repr

/-- `txKeyFor` -/
def txKeyFor (kinds : Nat → PoolKind) (db : GormDB) : TxKey :=
  match db.sqlDB kinds with
  | some d => .sqlDB d
  | none => .pool db.connPool

/-- The values of a context, newest first. -/
abbrev Context := List (TxKey × GormDB)

/-- `Value` -/
def Context.value (ctx : Context) (key : TxKey) : Option GormDB := ctx.lookup key

/-- `WithValue` -/
def Context.withValue (ctx : Context) (key : TxKey) (tx : GormDB) : Context := (key, tx) :: ctx

/-! ### The store -/

/-- How an operation ends. -/
inductive Outcome where
  | nil
  | err
  | panic
  deriving DecidableEq, Repr

/-- The databases, and what happened to them; nothing depends on the latter. -/
structure Store where
  committed : Nat → List Nat := fun _ => []
  pending : Nat → List Nat := fun _ => []
  clock : Nat := 0
  /-- The database a write was made on, and the outermost transaction on it in its context. -/
  wrote : Nat → Option (Nat × Option Nat) := fun _ => none
  ended : Nat → Option Bool := fun _ => none

/-- What a call does to them. -/
abbrev Action := Store → Outcome × Store

namespace Store

/-- A write to database `d`. -/
def write (s : Store) (db : GormDB) (d : Nat) (owner : Option Nat) : Store :=
  let s' := { s with
    clock := s.clock + 1, wrote := Function.update s.wrote s.clock (some (d, owner)) }
  match db.stmtPool with
  | .base e => { s' with committed := Function.update s.committed e (s.committed e ++ [s.clock]) }
  | .tx _ t => { s' with pending := Function.update s.pending t (s.pending t ++ [s.clock]) }

/-- Transaction `t` is committed. -/
def commit (s : Store) (d t : Nat) : Store :=
  { s with
    committed := Function.update s.committed d (s.committed d ++ s.pending t)
    pending := Function.update s.pending t [] }

/-- Transaction `t` is rolled back. -/
def rollback (s : Store) (t : Nat) : Store :=
  { s with pending := Function.update s.pending t [] }

/-- The operation of `t` has ended. -/
def endOp (s : Store) (t : Nat) (o : Outcome) : Store :=
  { s with ended := Function.update s.ended t (some (decide (o = .nil))) }

end Store

/-- gorm's `db.Transaction(fc)`. `begins` is whether `Begin` succeeds. -/
def transaction (db : GormDB) (begins : Bool) (fc : GormDB → Action) : Action := fun s =>
  let t := s.clock
  let s := { s with clock := s.clock + 1 }
  if begins then
    let r := fc (db.begin t) s
    (r.1, if r.1 = .nil then r.2.commit db.stmtPool.database t else r.2.rollback t)
  else (.err, s)

/-! ### The package -/

/-- `BaseRepository` -/
structure BaseRepository where
  gormDB : GormDB
  txKey : TxKey

/-- `NewBaseRepository` -/
def newBaseRepository (kinds : Nat → PoolKind) (db : GormDB) : BaseRepository :=
  ⟨db, txKeyFor kinds db⟩

/-- `RunTx` -/
def BaseRepository.runTx (r : BaseRepository) (ctx : Context) (begins : Bool)
    (op : Context → Action) : Action :=
  match ctx.value r.txKey with
  | some _ => op ctx
  | none => transaction r.gormDB begins fun tx => op (ctx.withValue r.txKey tx)

/-- `WithTx` -/
def withTx (kinds : Nat → PoolKind) (ctx : Context) (tx : GormDB) : Context :=
  ctx.withValue (txKeyFor kinds tx) tx

/-- `Table`, as far as `db` reads it. -/
structure Table where
  gormDB : GormDB
  txKey : TxKey

/-- `NewTable` -/
def newTable (kinds : Nat → PoolKind) (db : GormDB) : Table := ⟨db, txKeyFor kinds db⟩

/-- `db` -/
def Table.db (t : Table) (ctx : Context) : GormDB :=
  match ctx.value t.txKey with
  | some tx => tx
  | none => t.gormDB

/-- A program with `n` contexts in scope, the newest first. -/
inductive Op : Nat → Type where
  | ret {n : Nat} (err : Bool) : Op n
  | panic {n : Nat} : Op n
  | write {n : Nat} (d : Nat) (c : Fin n) (ok : Bool) (next : Bool → Op n) : Op n
  /-- `RunTx` on `d`, and what follows when it has returned nil (`true`) or an error. -/
  | runTx {n : Nat} (d : Nat) (c : Fin n) (begins : Bool) (body : Op (n + 1))
      (next : Bool → Op n) : Op n
  /-- gorm's `Transaction` on `d`, joined with `WithTx`. -/
  | joinTx {n : Nat} (d : Nat) (c : Fin n) (begins : Bool) (body : Op (n + 1))
      (next : Bool → Op n) : Op n
  | recover {n : Nat} (body : Op n) (next : Outcome → Op n) : Op n

/-- A context, and for each database the outermost transaction it comes from. -/
structure Scope where
  ctx : Context := []
  outer : Nat → Option Nat := fun _ => none

/-- The scope of the operation of transaction `t` on `d`, when its context is `ctx`. -/
def Scope.enter (sc : Scope) (d t : Nat) (ctx : Context) : Scope where
  ctx := ctx
  outer := if (sc.outer d).isSome then sc.outer else Function.update sc.outer d (some t)

/-- One more scope. -/
def push {α : Type} {n : Nat} (a : α) (env : Fin n → α) : Fin (n + 1) → α := Fin.cons a env

/-- The operation given to `RunTx`. -/
def operation (sc : Scope) (d t : Nat) (body : Scope → Action) (ctx : Context) : Action :=
  fun s =>
    let r := body (sc.enter d t ctx) s
    (r.1, if (sc.outer d).isSome then r.2 else r.2.endOp t r.1)

/-- A program goes on unless a call panicked. -/
def resume (next : Bool → Action) (r : Outcome × Store) : Outcome × Store :=
  match r.1 with
  | .nil => next true r.2
  | .err => next false r.2
  | .panic => r

/-- What a program does. -/
def eval (kinds : Nat → PoolKind) : {n : Nat} → Op n → (Fin n → Scope) → Action
  | _, .ret err, _ => fun s => (if err then .err else .nil, s)
  | _, .panic, _ => fun s => (.panic, s)
  | _, .write d c ok next, env => fun s =>
    if ok then
      let db := (newTable kinds (gormOpen d)).db (env c).ctx
      eval kinds (next true) env (s.write db d ((env c).outer d))
    else eval kinds (next false) env s
  | _, .runTx d c begins body next, env => fun s =>
    resume (fun b => eval kinds (next b) env)
      ((newBaseRepository kinds (gormOpen d)).runTx (env c).ctx begins
        (operation (env c) d s.clock fun sc => eval kinds body (push sc env)) s)
  | _, .joinTx d c begins body next, env => fun s =>
    resume (fun b => eval kinds (next b) env)
      (transaction (gormOpen d) begins
        (fun tx => operation (env c) d s.clock (fun sc => eval kinds body (push sc env))
          (withTx kinds (env c).ctx tx)) s)
  | _, .recover body next, env => fun s =>
    let r := eval kinds body env s
    eval kinds (next r.1) env r.2

/-- A gorm `Transaction` is joined only where its context (`sc`) has none on the database yet. -/
def Op.Outermost : {n : Nat} → Op n → (Fin n → Nat → Bool) → Prop
  | _, .ret _, _ => True
  | _, .panic, _ => True
  | _, .write _ _ _ next, sc => ∀ b, (next b).Outermost sc
  | _, .runTx d c _ body next, sc =>
    body.Outermost (push (Function.update (sc c) d true) sc) ∧ ∀ b, (next b).Outermost sc
  | _, .joinTx d c _ body next, sc =>
    sc c d = false ∧ body.Outermost (push (Function.update (sc c) d true) sc) ∧
      ∀ b, (next b).Outermost sc
  | _, .recover body next, sc => body.Outermost sc ∧ ∀ o, (next o).Outermost sc

/-- The databases on which a gorm `Transaction` is joined. -/
def Op.JoinsOn (p : Nat → Prop) : {n : Nat} → Op n → Prop
  | _, .ret _ => True
  | _, .panic => True
  | _, .write _ _ _ next => ∀ b, (next b).JoinsOn p
  | _, .runTx _ _ _ body next => body.JoinsOn p ∧ ∀ b, (next b).JoinsOn p
  | _, .joinTx d _ _ body next => p d ∧ body.JoinsOn p ∧ ∀ b, (next b).JoinsOn p
  | _, .recover body next => body.JoinsOn p ∧ ∀ o, (next o).JoinsOn p

/-- A program by itself. -/
def runProgram (kinds : Nat → PoolKind) (op : Op 1) : Outcome × Store :=
  eval kinds op (fun _ => {}) {}

end Microjet.Gormx.Transaction
