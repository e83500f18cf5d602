import Microjet.Lib.Run
import Microjet.Outbox.Db

/-!
# The relay's worker (`outbox/module.go`) and the enqueuer's signal

`run` makes a pass, waits for a tick, for a signal or for the end of its context, and starts
over. `Enqueue` signals after its insert, through a channel with room for one signal, and does
not wait. Inside a transaction the insert shows only at the commit, so a row may be signalled
before it can be read, or never show at all. Of a pass only its query is a step here; rows may
change at any time.
-/

namespace Microjet.Outbox

/-- Where `run` is. -/
inductive Place where
  /-- In `runPass`, before the answer of the query. -/
  | passing
  | draining
  | waiting
  | returned
  deriving DecidableEq, Repr

/-- The worker, its channels and the table, with what the runs are judged by. -/
structure RelayLoop where
  place : Place := .passing
  notify : Bool := false
  ticker : Bool := false
  cancelled : Bool := false
  rows : List Row := []
  used : List Nat := []
  signalled : List Nat := []
  early : List Nat := []
  heard : List Nat := []
  seen : Option (List Row) := none
  locked : List Nat := []

/-- A step of the worker, the enqueuer or the table. -/
inductive LoopEvent where
  /-- A row shows, since its insert or its transaction is committed. -/
  | commit (row : Row)
  /-- `signal`, by the `Enqueue` of the row. -/
  | signal (id : Nat)
  | tick
  /-- The query is answered, while other relays have these rows locked. -/
  | find (locked : List Nat)
  | update (v : Values) (id : Nat)
  | prune (cutoff : Time)
  | endPass
  | notified
  | ticked
  | cancel
  | stop

namespace RelayLoop

/-- `runPass` is called. -/
def beginPass (s : RelayLoop) : RelayLoop :=
  { s with place := .passing, heard := s.signalled, seen := none }

/-- One step. -/
def step (s : RelayLoop) : LoopEvent → Option RelayLoop
  | .commit row =>
    if row.id ∈ s.used then none
    else some { s with rows := row :: s.rows, used := row.id :: s.used }
  | .signal id =>
    some { s with
      notify := true
      signalled := id :: s.signalled
      early := if id ∈ s.used then s.early else id :: s.early }
  | .tick => some { s with ticker := true }
  | .find locked =>
    if s.place = .passing then some { s with place := .draining, seen := some s.rows, locked }
    else none
  | .update v id => some { s with rows := updateRows v id s.rows }
  | .prune cutoff => some { s with rows := s.rows.filter fun m => !prunable cutoff m }
  -- a pass whose query failed ends as well
  | .endPass =>
    if s.place = .passing ∨ s.place = .draining then some { s with place := .waiting } else none
  | .notified =>
    if s.place = .waiting ∧ s.notify then some { s with notify := false }.beginPass else none
  | .ticked =>
    if s.place = .waiting ∧ s.ticker then some { s with ticker := false }.beginPass else none
  | .cancel => some { s with cancelled := true }
  | .stop =>
    if s.place = .waiting ∧ s.cancelled then some { s with place := .returned } else none

end RelayLoop

end Microjet.Outbox
