import Microjet.Lib.Registry
import Mathlib.Logic.Function.Basic

/-!
# The per-key limiter (`core/limitx/keyed.go`)

A goroutine that has reserved a slot keeps the reference while the map moves on, so the model
has a heap of slots and the map holds references. `Acquire` reserves under the mutex, waits
for room or for its context to end, and in the second case drops its reference again. The
release function takes an element out of the channel and then drops the reference; a
`sync.Once` lets that happen once, and others wait meanwhile. Any order of events is a
schedule.
-/

namespace Microjet.Limitx

open Registry

/-- `slot`; its channel is the number of elements in it. -/
structure Slot where
  sem : Nat
  refs : Int
  deriving DecidableEq, Repr

/-- `Keyed` -/
structure Keyed (K : Type) where
  perKey : Int
  slots : K → Option Nat
  heap : Nat → Slot
  next : Nat

variable {K : Type} [DecidableEq K]

/-- `NewKeyed` -/
def newKeyed (perKey : Int) : Keyed K where
  perKey := if perKey < 1 then 1 else perKey
  slots := fun _ => none
  heap := fun _ => ⟨0, 0⟩
  next := 0

namespace Keyed

/-- `reserve` -/
def reserve (l : Keyed K) (key : K) : Nat × Keyed K :=
  match l.slots key with
  | some s =>
    (s, { l with
      heap := Function.update l.heap s { l.heap s with refs := (l.heap s).refs + 1 } })
  | none =>
    (l.next, { l with
      slots := Function.update l.slots key (some l.next)
      heap := Function.update l.heap l.next ⟨0, 1⟩
      next := l.next + 1 })

/-- `release` -/
def release (l : Keyed K) (key : K) : Keyed K :=
  match l.slots key with
  | none => l
  | some s =>
    { l with
      heap := Function.update l.heap s { l.heap s with refs := (l.heap s).refs - 1 }
      slots :=
        if (l.heap s).refs - 1 ≤ 0 then Function.update l.slots key none
        else l.slots }

/-- `s.sem <- struct{}{}`, when the channel has room. -/
def send (l : Keyed K) (s : Nat) : Option (Keyed K) :=
  if (l.heap s).sem < l.perKey then
    some { l with
      heap := Function.update l.heap s { l.heap s with sem := (l.heap s).sem + 1 } }
  else none

/-- An element is taken out of the channel. -/
def receive (l : Keyed K) (s : Nat) : Option (Keyed K) :=
  if 0 < (l.heap s).sem then
    some { l with
      heap := Function.update l.heap s { l.heap s with sem := (l.heap s).sem - 1 } }
  else none

end Keyed

/-- Where a call of `Acquire` is between its `reserve` and its last `release`. -/
inductive Place where
  | waiting
  | holding
  /-- The release function has given the slot back. -/
  | giving
  deriving DecidableEq, Repr

/-- A call of `Acquire`, until its release is over. -/
structure Ticket (K : Type) where
  id : Nat
  key : K
  slot : Nat
  place : Place

/-- The limiter and the calls in between. -/
structure Limiter (K : Type) where
  keyed : Keyed K
  live : List (Ticket K)
  released : List Nat

/-- A step of a call. -/
inductive Event (K : Type) where
  /-- `Acquire` with a context that has ended already. -/
  | refuse (id : Nat) (key : K)
  | reserve (id : Nat) (key : K)
  | take (id : Nat)
  | cancel (id : Nat)
  | release (id : Nat)
  | drop (id : Nat)
  deriving DecidableEq, Repr

/-- The call it is of. -/
def Event.id : Event K → Nat
  | .refuse id _ => id
  | .reserve id _ => id
  | .take id => id
  | .cancel id => id
  | .release id => id
  | .drop id => id

namespace Limiter

/-- A new limiter. -/
def start (perKey : Int) : Limiter K where
  keyed := newKeyed perKey
  live := []
  released := []

/-- The call, if it is there. -/
def at? (s : Limiter K) (id : Nat) (place : Place) : Option (Ticket K) :=
  (get Ticket.id s.live id).filter fun t => t.place = place

/-- A call has reserved a slot. -/
def arrive (s : Limiter K) (id : Nat) (key : K) (slot : Nat) (l : Keyed K) : Limiter K :=
  { s with keyed := l, live := ⟨id, key, slot, .waiting⟩ :: s.live }

/-- A call goes on. -/
def move (s : Limiter K) (id : Nat) (place : Place) (l : Keyed K) : Limiter K :=
  { s with keyed := l, live := modify Ticket.id s.live id fun t => { t with place } }

/-- A call is over. -/
def leave (s : Limiter K) (id : Nat) (l : Keyed K) : Limiter K :=
  { s with keyed := l, live := remove Ticket.id s.live id }

/-- One step. -/
def step (s : Limiter K) : Event K → Option (Limiter K)
  | .refuse _ _ => some s
  | .reserve id key =>
    if (get Ticket.id s.live id).isSome ∨ id ∈ s.released then none
    else some (s.arrive id key (s.keyed.reserve key).1 (s.keyed.reserve key).2)
  | .take id =>
    (s.at? id .waiting).bind fun t =>
      (s.keyed.send t.slot).map (s.move id .holding)
  | .cancel id =>
    (s.at? id .waiting).map fun t => s.leave id (s.keyed.release t.key)
  | .release id =>
    if id ∈ s.released then some s
    else
      (s.at? id .holding).bind fun t =>
        (s.keyed.receive t.slot).map (s.move id .giving)
  | .drop id =>
    (s.at? id .giving).map fun t =>
      { s.leave id (s.keyed.release t.key) with released := id :: s.released }

/-- The calls that hold a key. -/
def holders (s : Limiter K) (key : K) : List (Ticket K) :=
  s.live.filter fun t => t.key = key ∧ t.place = .holding

/-- What the map says about a key: the elements in its channel and its
references. -/
def entry (s : Limiter K) (key : K) : Option Slot := (s.keyed.slots key).map s.keyed.heap

end Limiter

end Microjet.Limitx
