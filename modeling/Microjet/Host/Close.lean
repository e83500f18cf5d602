import Microjet.Core.ErrorTree
import Microjet.Host.App

/-!
# Closing the services (`host/service.go`)

`closeServices` as one call, with the errors that it returns. What a `Close` returns is given
for every call by its number.
-/

namespace Microjet.Host

open Errorx

section Close

variable {K I α : Type}

/-- A `Close` is called, or returns. -/
inductive CloseAct (K I α : Type) where
  | called (k : K) (i : I)
  | returned (err : Option (ErrorTree α))

/-- `orderedRange` -/
def Container.orderedRange (c : Container K I) : List (K × I) :=
  c.keys.filterMap fun k => (c.load k).map (k, ·)

/-- Registrations one after the other. -/
def Container.register [DecidableEq K] (regs : List (K × I)) : Container K I :=
  regs.foldl (fun c r => c.storeKey r.1 r.2) .empty

/-- `errors.Join` -/
def collectErr (sprint : α → String) (errs err : Option (ErrorTree α)) : Option (ErrorTree α) :=
  match err with
  | none => errs
  | some err => ErrorTree.join sprint [errs, some err]

variable (svc : I → Service) (sprint : α → String) (outcome : Nat → Option (ErrorTree α))

/-- The loop of `closeServices`. -/
def closeLoop : Nat → Option (ErrorTree α) → List (K × I) →
    List (CloseAct K I α) × Option (ErrorTree α)
  | _, errs, [] => ([], errs)
  | n, errs, (k, i) :: entries =>
    if (svc i).closer then
      let rest := closeLoop (n + 1) (collectErr sprint errs (outcome n)) entries
      (.called k i :: .returned (outcome n) :: rest.1, rest.2)
    else closeLoop n errs entries

/-- `closeServices` -/
def closeServices (c : Container K I) : List (CloseAct K I α) × Option (ErrorTree α) :=
  closeLoop svc sprint outcome 0 none (closeSequence svc c.orderedRange)

end Close

end Microjet.Host
