import Mathlib.Logic.Function.Basic
import Microjet.Core.Errorx

/-!
# The health status of the gRPC server (`grpcx/server.go`)

`SetReady` and `updateHealth`, one statement a step, by any number of goroutines. What the
readiness checks find is part of the event `probed`. Of the statuses of the health server only
that of the server as a whole is used.
-/

namespace Microjet.Grpcx

open Errorx

/-- `HealthCheckResponse_ServingStatus` -/
inductive ServingStatus where
  | serving
  | notServing
  deriving DecidableEq, Repr

/-- `runReadinessChecks`, by what the checks return: the first error ends it. -/
def runReadinessChecks : List (Option Err) → Bool
  | [] => true
  | none :: results => runReadinessChecks results
  | some _ :: _ => false

/-- A call by a goroutine. -/
inductive HealthCall where
  | setReady (ready : Bool)
  | updateHealth
  deriving DecidableEq, Repr

/-- Where a goroutine is. -/
inductive At where
  | called (c : HealthCall)
  /-- `updateHealth` has seen that there is a health server. -/
  | loading
  /-- It runs the readiness checks. -/
  | probing
  /-- It has a status, and is about to take the lock. -/
  | found (status : ServingStatus)
  /-- `SetReady` has the lock. -/
  | storing (ready : Bool)
  /-- `updateHealth` has the lock. -/
  | rechecking (status : ServingStatus)
  /-- Before `SetServingStatus`. -/
  | publishing (c : HealthCall) (status : ServingStatus)
  /-- Before the deferred unlock. -/
  | leaving (c : HealthCall)
  deriving DecidableEq, Repr

/-- `Server`, and the goroutines in it. -/
structure Server where
  healthSrv : Option ServingStatus := none
  notReady : Bool := false
  healthMu : Option Nat := none
  goroutines : Nat → Option At := fun _ => none

/-- A statement; `lock` waits until nobody holds `healthMu`. -/
inductive HealthEvent where
  | call (g : Nat) (c : HealthCall)
  | checkNil (g : Nat)
  | load (g : Nat)
  | probed (g : Nat) (results : List (Option Err))
  | lock (g : Nat)
  | store (g : Nat) (ready : Bool)
  | reload (g : Nat)
  | publish (g : Nat)
  | ret (g : Nat) (c : HealthCall)
  deriving DecidableEq, Repr

namespace Server

/-- Goroutine `g` goes on. -/
def goto (s : Server) (g : Nat) (a : At) : Server :=
  { s with goroutines := Function.update s.goroutines g (some a) }

/-- Goroutine `g` has returned. -/
def exit (s : Server) (g : Nat) : Server :=
  { s with goroutines := Function.update s.goroutines g none }

/-- `Init` -/
def init (s : Server) : Server := { s with healthSrv := some .serving }

/-- One statement; the deferred unlock and the return are one. -/
def step (s : Server) : HealthEvent → Option Server
  | .call g c =>
    match s.goroutines g with
    | none => some (s.goto g (.called c))
    | some _ => none
  | .checkNil g =>
    match s.goroutines g with
    | some (.called .updateHealth) =>
      if s.healthSrv.isNone then some (s.exit g) else some (s.goto g .loading)
    | _ => none
  | .load g =>
    match s.goroutines g with
    | some .loading => some (s.goto g (if s.notReady then .found .notServing else .probing))
    | _ => none
  | .probed g results =>
    match s.goroutines g with
    | some .probing =>
      some (s.goto g (.found (if runReadinessChecks results then .serving else .notServing)))
    | _ => none
  | .lock g =>
    if s.healthMu.isSome then none
    else
      match s.goroutines g with
      | some (.called (.setReady ready)) =>
        some { s.goto g (.storing ready) with healthMu := some g }
      | some (.found status) => some { s.goto g (.rechecking status) with healthMu := some g }
      | _ => none
  | .store g ready =>
    if s.goroutines g = some (.storing ready) then
      let next : At :=
        if !ready && s.healthSrv.isSome then .publishing (.setReady ready) .notServing
        else .leaving (.setReady ready)
      some { s.goto g next with notReady := !ready }
    else none
  | .reload g =>
    match s.goroutines g with
    | some (.rechecking status) =>
      some (s.goto g (.publishing .updateHealth (if s.notReady then .notServing else status)))
    | _ => none
  | .publish g =>
    match s.goroutines g with
    | some (.publishing c status) =>
      some { s.goto g (.leaving c) with healthSrv := s.healthSrv.map fun _ => status }
    | _ => none
  | .ret g c =>
    if s.goroutines g = some (.leaving c) then some { s.exit g with healthMu := none } else none

end Server

end Microjet.Grpcx
