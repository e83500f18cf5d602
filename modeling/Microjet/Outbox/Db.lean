import Microjet.Outbox.Relay

/-!
# What the database and the broker do

The shared state is the committed table, the open transactions of the relays, and the ledger
of everything that was ever inserted. What the relay relies on:

* commit and rollback are atomic, and a write that reports an error did not happen;
* a query sees committed rows and the transaction's own writes only;
* `FOR UPDATE SKIP LOCKED` looks at the latest committed version of a row, returns only rows no
  other open transaction has locked, and locks what it returns until the transaction ends. It
  may skip more than it has to;
* an `UPDATE` or `DELETE` of a row another transaction has locked waits;
* a primary key is never given to two rows.

Any question may be answered with an error, the clock says anything, the broker accepts or
refuses as it likes. The history, newest first, is what an observer of the broker and of the
committed table sees; nothing depends on it.
-/

namespace Microjet.Outbox

open Errorx Messaging Conc

/-- A relay. -/
abbrev Tid := Nat

/-- A pass of a relay. -/
structure PassId where
  relay : Tid
  nth : Nat
  deriving DecidableEq, Repr

/-- What an observer of the broker and of the committed table sees. -/
inductive Event where
  | handed (p : PassId) (id : Nat) (msg : Message) (ok : Bool)
  | marked (p : PassId) (id : Nat)
  | recorded (p : PassId) (id attempts : Nat) (quarantined : Bool)
  | aborted (p : PassId)
  | returned (p : PassId) (n : Nat)
  deriving DecidableEq, Repr

/-- The pass of an event. -/
def Event.pass : Event → PassId
  | .handed p _ _ _ => p
  | .marked p _ => p
  | .recorded p _ _ _ => p
  | .aborted p => p
  | .returned p _ => p

/-- An open relay transaction: the rows it has locked and what it has written,
oldest first. -/
structure Tx where
  locks : List Nat := []
  writes : List (Nat × Values) := []

/-- What became of an insert. -/
inductive Status where
  | inFlight | committed | rolledBack
  deriving DecidableEq, Repr

/-- An insert in the ledger. -/
structure Entry where
  row : Row
  tx : Nat
  status : Status

/-- The shared state. `runs` counts the jobs each relay has started. -/
structure St where
  rows : List Row := []
  ledger : List Entry := []
  txs : Tid → Option Tx := fun _ => none
  runs : Tid → Nat := fun _ => 0
  hist : List Event := []

/-- The latest pass of a relay. -/
def St.pass (s : St) (t : Tid) : PassId := ⟨t, s.runs t⟩

/-! ## Writes -/

/-- `UPDATE` -/
def updateRows (v : Values) (id : Nat) (rows : List Row) : List Row :=
  rows.map fun m => if m.id = id then v.apply m else m

/-- What an observer sees of an update. -/
def Values.events (p : PassId) (id : Nat) (v : Values) : List Event :=
  (v.publishedAt.toList.map fun _ => .marked p id) ++
    v.attempts.toList.map fun a => .recorded p id a v.failedAt.isSome

/-- A committed update: it changes the row, if there is one, and shows. -/
def St.write (p : PassId) (s : St) (w : Nat × Values) : St :=
  if s.rows.any (·.id == w.1) then
    { s with rows := updateRows w.2 w.1 s.rows, hist := w.2.events p w.1 ++ s.hist }
  else s

/-- `COMMIT` -/
def St.commitTx (s : St) (t : Tid) (tx : Tx) : St :=
  let s' := tx.writes.foldl (St.write (s.pass t)) s
  { s' with txs := Function.update s.txs t none }

/-- `ROLLBACK` -/
def St.abortTx (s : St) (t : Tid) : St :=
  { s with
    txs := Function.update s.txs t none
    hist := .aborted (s.pass t) :: s.hist }

/-- The table as relay `t` sees it: committed rows under its own writes. -/
def St.view (s : St) (t : Tid) : List Row :=
  match s.txs t with
  | none => s.rows
  | some tx => tx.writes.foldl (fun rows w => updateRows w.2 w.1 rows) s.rows

/-- Another transaction has locked the row. -/
def St.LockedElsewhere (s : St) (t : Tid) (id : Nat) : Prop :=
  ∃ u tx, u ≠ t ∧ s.txs u = some tx ∧ id ∈ tx.locks

/-- Lock rows for the rest of the transaction; outside one there is nothing to
hold a lock. -/
def St.lock (s : St) (t : Tid) (ids : List Nat) : St :=
  match s.txs t with
  | none => s
  | some tx =>
    { s with
      txs := Function.update s.txs t (some { tx with locks := ids ++ tx.locks }) }

/-! ## Questions -/

/-- One question of relay `t`, as a step of the shared state. -/
def exec (t : Tid) : (op : Op) → St → Ans op → St → Prop
  | .ctxErr, s, _, s' => s' = s
  | .now, s, _, s' => s' = s
  | .begin, s, a, s' =>
    match (a : Except Err Unit) with
    | .error _ => s' = s
    | .ok _ => s' = { s with txs := Function.update s.txs t (some {}) }
  | .commit, s, a, s' =>
    match (a : Except Err Unit) with
    | .error _ => s' = s.abortTx t
    | .ok _ => ∃ tx, s.txs t = some tx ∧ s' = s.commitTx t tx
  | .rollback, s, _, s' => s' = s.abortTx t
  | .find q, s, a, s' =>
    match (a : Except Err (List Row)) with
    | .error _ => s' = s
    | .ok rows =>
      if q.skipLocked then
        ∃ skip : List Nat, (∀ id, s.LockedElsewhere t id → id ∈ skip) ∧
          rows = q.eval ((s.view t).filter fun m => m.id ∉ skip) ∧
          s' = s.lock t (rows.map Row.id)
      else rows = q.eval (s.view t) ∧ s' = s
  | .publish src msg, s, a, s' =>
    s' = { s with
      hist := .handed (s.pass t) src msg (a : Option Err).isNone :: s.hist }
  | .update v id, s, a, s' =>
    match (a : Except Err Nat) with
    | .error _ => s' = s
    | .ok n =>
      ¬ s.LockedElsewhere t id ∧
      n = ((s.view t).filter (·.id == id)).length ∧
      match s.txs t with
      | none => s' = s.write (s.pass t) (id, v)
      | some tx =>
        s' = { s with
          txs := Function.update s.txs t
            (some ⟨id :: tx.locks, tx.writes ++ [(id, v)]⟩) }
  | .delete cond, s, a, s' =>
    match (a : Except Err Nat) with
    | .error _ => s' = s
    | .ok n =>
      (∀ m ∈ s.rows, cond m = true → ¬ s.LockedElsewhere t m.id) ∧
      n = (s.rows.filter cond).length ∧
      s' = { s with rows := s.rows.filter fun m => !cond m }

/-! ## Enqueuing transactions

The domain code opens transactions of its own, enqueues into them and commits or
rolls back. A row is in the ledger from its insert on; it is in the table from
the commit on. -/

/-- The transaction of the insert has ended. -/
def Entry.settle (x : Nat) (status : Status) (e : Entry) : Entry :=
  if e.tx = x ∧ e.status = .inFlight then { e with status } else e

/-- The rows of a transaction that is open. -/
def St.inFlight (s : St) (x : Nat) : List Row :=
  (s.ledger.filter fun e => e.tx = x ∧ e.status = .inFlight).map Entry.row

/-- The steps of the domain code: an `Enqueue` inside transaction `x`, and the
end of a transaction. -/
inductive Env (json : HeaderJSON) : St → St → Prop where
  | enqueue {s : St} {x id : Nat} {ctx : Ctx} {msg : Message} {row : Row}
      (h : enqueue json true ctx msg = .ok row)
      (hid : id ∉ s.ledger.map (·.row.id)) :
      Env json s { s with ledger := ⟨{ row with id }, x, .inFlight⟩ :: s.ledger }
  | commit {s : St} (x : Nat) :
      Env json s { s with
        rows := s.rows ++ s.inFlight x
        ledger := s.ledger.map (Entry.settle x .committed) }
  | rollback {s : St} (x : Nat) :
      Env json s { s with ledger := s.ledger.map (Entry.settle x .rolledBack) }

/-! ## The system -/

/-- What a job of a relay returns. -/
inductive Result where
  | published (n : Nat) (err : Option Err)
  | pruned (n : Nat) (err : Option Err)

/-- The relays over one database. -/
structure System where
  json : HeaderJSON
  dialect : String
  opts : Tid → List RelayOption

/-- Relay `t`. -/
def System.relay (sys : System) (t : Tid) : Relay :=
  newRelay sys.dialect (sys.opts t)

/-- Whether the relays claim their batches with `SKIP LOCKED`. -/
def System.locking (sys : System) : Bool := dialectSupportsLocking sys.dialect

/-- The one relay allowed to publish on a dialect without `SKIP LOCKED`. -/
def leader : Tid := 0

/-- A pass. -/
def passJob (json : HeaderJSON) (r : Relay) : Code Result := do
  let (n, err) ← publishPending json r
  return .published n err

/-- A pruning. -/
def pruneJob (r : Relay) : Code Result := do
  let (n, err) ← prunePublished r
  return .pruned n err

/-- The jobs relay `t` may start: a pass, unless another relay is the one that publishes without
locks, and a prune. -/
def start (sys : System) (t : Tid) (p : Code Result) (s s' : St) : Prop :=
  s' = { s with runs := Function.update s.runs t (s.runs t + 1) } ∧
    ((p = passJob sys.json (sys.relay t) ∧
        (sys.locking = true ∨ t = leader)) ∨
      p = pruneJob (sys.relay t))

/-- A job has returned. -/
def finish (t : Tid) (a : Result) (s s' : St) : Prop :=
  match a with
  | .published n _ => s' = { s with hist := .returned (s.pass t) n :: s.hist }
  | .pruned _ _ => s' = s

/-- A crash drops the thread; the database rolls back what it had open. -/
def crash (t : Tid) (s s' : St) : Prop :=
  match s.txs t with
  | none => s' = s
  | some _ => s' = s.abortTx t

/-- The system. -/
def machine (sys : System) : Machine Tid Op Ans St Result where
  start := start sys
  exec := exec
  finish := finish
  crash := crash
  env := Env sys.json

/-- Nothing has happened. -/
def initial (s : St) : Prop := s = {}

/-- The states of all runs. -/
def Reachable (sys : System) (s : St) : Prop :=
  ∃ procs, Reach (machine sys) initial ⟨s, procs⟩

end Microjet.Outbox
