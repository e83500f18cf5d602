import Mathlib.Logic.Function.Basic
import Microjet.Logx.Chain
import Microjet.Logx.Record

/-!
# Handlers that share a writer (`core/logx/logger.go`)

`WithAttrs` and `WithGroup` make a new `plainTextHandler` with the same writer and a mutex of
its own. `Handle` makes the line, takes the mutex of its handler, calls `Write`, and gives the
mutex back. A `Write` begins and ends.
-/

namespace Microjet.Logx

open Secretx

/-- Where a call of `Handle` is. -/
inductive At where
  /-- The line is in the buffer; it is about to take the mutex. -/
  | formatted (buf : GoString)
  | locked (buf : GoString)
  | writing (buf : GoString)
  | written
  deriving DecidableEq, Repr

/-- A call of `Handle`. -/
structure Call where
  handler : Nat
  place : At
  deriving DecidableEq, Repr

/-- A text handler and all that were derived from it. -/
structure Family where
  handlers : List PlainTextHandler
  mu : Nat → Option Nat := fun _ => none
  goroutines : Nat → Option Call := fun _ => none
  output : List GoString := []

/-- A step. -/
inductive LogEvent where
  | derive (parent : Nat) (d : Derivation)
  | handle (g handler : Nat) (r : Record)
  | lock (g : Nat)
  | write (g : Nat)
  | wrote (g : Nat)
  | ret (g : Nat)

namespace Family

/-- The first handler. -/
def new : Family := { handlers := [{}] }

/-- Goroutine `g` goes on. -/
def goto (s : Family) (g : Nat) (c : Call) : Family :=
  { s with goroutines := Function.update s.goroutines g (some c) }

/-- Goroutine `g` has returned. -/
def exit (s : Family) (g : Nat) : Family :=
  { s with goroutines := Function.update s.goroutines g none }

variable (isPrint : Nat → Bool) (ρ : Secrets)

/-- One step. -/
def step (s : Family) : LogEvent → Option Family
  | .derive parent d =>
    match s.handlers[parent]? with
    | some h => some { s with handlers := s.handlers ++ [h.derive d] }
    | none => none
  | .handle g handler r =>
    match s.goroutines g, s.handlers[handler]? with
    | none, some h => some (s.goto g ⟨handler, .formatted (h.handleRecord isPrint ρ r)⟩)
    | _, _ => none
  | .lock g =>
    match s.goroutines g with
    | some ⟨handler, .formatted buf⟩ =>
      if (s.mu handler).isSome then none
      else
        some { s.goto g ⟨handler, .locked buf⟩ with
          mu := Function.update s.mu handler (some g) }
    | _ => none
  | .write g =>
    match s.goroutines g with
    | some ⟨handler, .locked buf⟩ => some (s.goto g ⟨handler, .writing buf⟩)
    | _ => none
  | .wrote g =>
    match s.goroutines g with
    | some ⟨handler, .writing buf⟩ =>
      some { s.goto g ⟨handler, .written⟩ with output := s.output ++ [buf] }
    | _ => none
  | .ret g =>
    match s.goroutines g with
    | some ⟨handler, .written⟩ =>
      some { s.exit g with mu := Function.update s.mu handler none }
    | _ => none

end Family

end Microjet.Logx
