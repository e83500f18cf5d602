import Microjet.Lib.Prog
import Microjet.Outbox.Message

/-!
# The relay (`outbox/relay.go`)

The relay's methods over the questions they put to the context, the clock, the database and
the broker; what a question does is in `Outbox/Db.lean`. A thread that has asked `begin` is
inside its transaction until it asks `commit` or `rollback`, as with the `*gormx.Table` that
the source passes on; outside, every write commits by itself. Logging is left out. `publish`
carries the id of the row, which only the histories see.
-/

namespace Microjet.Outbox

open Errorx Messaging Conc

/-! ## Configuration -/

/-- `defaultBatchSize` -/
def defaultBatchSize : Nat := 100

/-- The settings; zero `maxAttempts` and `retention` mean unset, `locking` that the dialect has
`FOR UPDATE SKIP LOCKED`. -/
structure Relay where
  batchSize : Nat := defaultBatchSize
  batchSize_pos : 0 < batchSize := by decide
  maxAttempts : Nat := 0
  retention : Nat := 0
  locking : Bool

/-- The options that set a field the relay's logic reads. -/
inductive RelayOption where
  | withBatchSize (n : Int)
  | withMaxAttempts (n : Int)
  | withRetention (d : Int)

/-- Each option ignores a value that is not positive. -/
def RelayOption.apply (r : Relay) : RelayOption → Relay
  | .withBatchSize n =>
    if h : 0 < n then { r with batchSize := n.toNat, batchSize_pos := by omega }
    else r
  | .withMaxAttempts n => if 0 < n then { r with maxAttempts := n.toNat } else r
  | .withRetention d => if 0 < d then { r with retention := d.toNat } else r

/-- `dialectSupportsLocking` -/
def dialectSupportsLocking (dialect : String) : Bool :=
  dialect == "postgres" || dialect == "mysql"

/-- `NewRelay` -/
def newRelay (dialect : String) (opts : List RelayOption) : Relay :=
  opts.foldl RelayOption.apply { locking := dialectSupportsLocking dialect }

/-! ## Questions -/

/-- The columns of an `UpdateMap`; a column that is not in the map is `none`. -/
structure Values where
  publishedAt : Option Time := none
  failedAt : Option Time := none
  attempts : Option Nat := none
  lastError : Option String := none
  deriving DecidableEq, Repr

/-- The row after the update. -/
def Values.apply (v : Values) (m : Row) : Row :=
  { m with
    publishedAt := v.publishedAt.or m.publishedAt
    failedAt := v.failedAt.or m.failedAt
    attempts := v.attempts.getD m.attempts
    lastError := v.lastError.getD m.lastError }

/-- A `SELECT … WHERE cond ORDER BY id ASC LIMIT limit`, with or without
`FOR UPDATE SKIP LOCKED`. -/
structure Query where
  cond : Row → Bool
  limit : Nat
  skipLocked : Bool

/-- The rows a query finds. -/
def Query.eval (q : Query) (visible : List Row) : List Row :=
  ((visible.filter q.cond).insertionSort (fun a b => a.id ≤ b.id)).take q.limit

theorem mem_eval {q : Query} {visible : List Row} {m : Row} (h : m ∈ q.eval visible) :
    m ∈ visible ∧ q.cond m = true := by
  have h := List.mem_of_mem_take h
  rw [List.mem_insertionSort] at h
  exact List.mem_filter.mp h

theorem eval_nodup {q : Query} {visible : List Row}
    (h : (visible.map Row.id).Nodup) : ((q.eval visible).map Row.id).Nodup := by
  refine ((List.take_sublist _ _).map _).nodup ?_
  rw [((List.perm_insertionSort _ _).map Row.id).nodup_iff]
  exact (List.filter_sublist.map _).nodup h

/-- A question. -/
inductive Op where
  | ctxErr
  | now
  | begin
  | commit
  | rollback
  | find (q : Query)
  | publish (src : Nat) (msg : Message)
  | update (values : Values) (id : Nat)
  | delete (cond : Row → Bool)

/-- Its answers. -/
def Ans : Op → Type
  | .ctxErr => Option Err
  | .now => Time
  | .begin => Except Err Unit
  | .commit => Except Err Unit
  | .rollback => Unit
  | .find _ => Except Err (List Row)
  | .publish _ _ => Option Err
  | .update _ _ => Except Err Nat
  | .delete _ => Except Err Nat

/-- A method of the relay. -/
abbrev Code := Prog Op Ans

abbrev ctxErr : Code (Option Err) := Prog.ask Op.ctxErr

abbrev clockNow : Code Time := Prog.ask Op.now

abbrev begin : Code (Except Err Unit) := Prog.ask Op.begin

abbrev commit : Code (Except Err Unit) := Prog.ask Op.commit

abbrev rollback : Code Unit := Prog.ask Op.rollback

abbrev listAll (q : Query) : Code (Except Err (List Row)) := Prog.ask (Op.find q)

abbrev publish (src : Nat) (msg : Message) : Code (Option Err) :=
  Prog.ask (Op.publish src msg)

abbrev updateMap (values : Values) (id : Nat) : Code (Except Err Nat) :=
  Prog.ask (Op.update values id)

abbrev deleteWhere (cond : Row → Bool) : Code (Except Err Nat) :=
  Prog.ask (Op.delete cond)

/-! ## A pass -/

/-- `pendingRows`: the oldest unpublished, non-quarantined rows, at most one
batch. -/
def pendingRows (r : Relay) (skipLocked : Bool) : Code (Except Err (List Row)) := do
  match ← listAll ⟨Row.pending, r.batchSize, skipLocked⟩ with
  | .error err =>
    return .error ((newInternalError "outbox"
      "loading pending messages failed").withInner err)
  | .ok rows => return .ok rows

/-- `recordFailure`: one more attempt, the text, and the quarantine once `maxAttempts` is
reached. -/
def recordFailure (r : Relay) (m : Row) (cause : Err) : Code (Option Err) := do
  let attempts := m.attempts + 1
  let values : Values :=
    { attempts := some attempts, lastError := some cause.error }
  let values ←
    if 0 < r.maxAttempts ∧ r.maxAttempts ≤ attempts then do
      let now ← clockNow
      pure { values with failedAt := some now }
    else (pure values : Code Values)
  match ← updateMap values m.id with
  | .error err => return some err
  | .ok _ => return none

/-- The broker message of a row: its subject, payload and decoded headers. -/
def Row.message (json : HeaderJSON) (m : Row) : Except Err Message :=
  if m.headers.length > 0 then
    match json.fromJSON m.headers with
    | .error err => .error err
    | .ok headers => .ok { subject := m.subject, data := m.payload, headers }
  else .ok { subject := m.subject, data := m.payload }

/-- `publishOne`: whether the row was published and marked, and the error of a
database write. -/
def publishOne (json : HeaderJSON) (r : Relay) (m : Row) :
    Code (Bool × Option Err) :=
  match m.message json with
  | .error err => do
      let e ← recordFailure r m err
      return (false, e)
  | .ok msg => do
      match ← publish m.id msg with
      | some err => do
          let e ← recordFailure r m err
          return (false, e)
      | none => do
          let now ← clockNow
          match ← updateMap { publishedAt := some now } m.id with
          | .error err => return (false, some err)
          | .ok _ => return (true, none)

/-- `drain`, from a count already reached, of the rows published and marked. -/
def drain (json : HeaderJSON) (r : Relay) (stopOnWriteErr : Bool) :
    List Row → Nat → Code (Nat × Option Err)
  | [], published => return (published, none)
  | m :: rows, published => do
      match ← ctxErr with
      | some err => return (published, some err)
      | none => do
          match ← publishOne json r m with
          | (_, some err) =>
            if stopOnWriteErr then return (published, some err)
            else drain json r stopOnWriteErr rows published
          | (ok, none) =>
            drain json r stopOnWriteErr rows
              (if ok then published + 1 else published)

/-- gorm's `Transaction`. The callback assigns `published`; `init` is its value before. -/
def transaction (init : Nat) (fn : Code (Nat × Option Err)) :
    Code (Nat × Option Err) := do
  match ← begin with
  | .error err => return (init, some err)
  | .ok _ => do
      match ← fn with
      | (published, some err) => do
          rollback
          return (published, some err)
      | (published, none) => do
          match ← commit with
          | .error err => return (published, some err)
          | .ok _ => return (published, none)

/-- `publishPendingLocked`: the pass inside one transaction, reporting zero when
it rolled back. -/
def publishPendingLocked (json : HeaderJSON) (r : Relay) :
    Code (Nat × Option Err) := do
  match ← transaction 0 (do
      match ← pendingRows r true with
      | .error err => return (0, some err)
      | .ok rows => drain json r true rows 0) with
  | (_, some err) => return (0, some err)
  | (published, none) => return (published, none)

/-- `PublishPending` -/
def publishPending (json : HeaderJSON) (r : Relay) : Code (Nat × Option Err) :=
  if r.locking then publishPendingLocked json r
  else do
    match ← pendingRows r false with
    | .error err => return (0, some err)
    | .ok rows => drain json r false rows 0

/-- The row is old enough to be deleted. -/
def prunable (cutoff : Time) (m : Row) : Bool :=
  match m.publishedAt with
  | none => false
  | some at' => at' < cutoff

/-- `PrunePublished` -/
def prunePublished (r : Relay) : Code (Nat × Option Err) :=
  if r.retention = 0 then return (0, none)
  else do
    let now ← clockNow
    let cutoff := now - r.retention
    match ← deleteWhere (prunable cutoff) with
    | .error err =>
      return (0, some ((newInternalError "outbox"
        "pruning published messages failed").withInner err))
    | .ok n => return (n, none)

end Microjet.Outbox
