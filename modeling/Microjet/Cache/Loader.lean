import Microjet.Core.Errorx
import Microjet.Lib.Registry
import Microjet.Lib.Family

/-!
# Load-through caching (`cache/loader.go`)

`Get` reads the cache and, on a miss, calls `singleflight.Do`, in which one caller reads
again, loads and stores, and the others wait for it. No step of a call on one key touches
another, so the model is of one key; all keys together are `Trace.each`. Several loaders `ρ`
may share the cache; each has flights of its own. What the cache and `load` do is part of the
events. Events are counted for what is said about runs; nothing depends on the count.
-/

namespace Microjet.Cache

open Errorx Registry

/-- What matters of the type `T` of a loader, and of how it is stored. -/
structure Kind (τ : Type) where
  zero : τ
  /-- `v.(T)` holds of the value; it does not of a nil when `T` is an interface type. -/
  asserts : τ → Bool
  /-- Whether `get` takes a stored value for one. -/
  takes : τ → Bool

/-- `NewLoader` -/
def newLoader {τ : Type} (zero : τ) (asserts : τ → Bool) : Kind τ where
  zero
  asserts
  takes := asserts

/-- `NewJSONLoader`: `GetJSON` decodes into a `T`. -/
def newJSONLoader {τ : Type} (zero : τ) (asserts : τ → Bool) : Kind τ where
  zero
  asserts
  takes := fun _ => true

/-- What the cache has for the key; `since` is when its load began. -/
inductive Entry (τ : Type) where
  | value (v : τ) (since : Nat)
  | foreign
  deriving DecidableEq, Repr

/-- What a call of `Get` ends in. -/
inductive Outcome (τ : Type) where
  | value (v : τ) (since : Nat)
  | failed (err : Err)
  deriving DecidableEq, Repr

/-- Where a call of `Get` is. -/
inductive Place (τ : Type) where
  | reading
  | doing
  | waiting
  | done (o : Outcome τ)
  deriving DecidableEq, Repr

/-- A call of `Get`. -/
structure Call (ρ τ : Type) where
  number : Nat
  loader : ρ
  started : Nat
  place : Place τ

/-- Where the function given to `Do` is. -/
inductive Flight (τ : Type) where
  | rereading
  | loading
  | inLoad (since : Nat)
  | storing (v : τ) (since : Nat)
  /-- It has returned, and `Do` has not taken it out of the group yet. -/
  | ended (o : Outcome τ)
  deriving DecidableEq, Repr

/-- A call of `Get` that has returned. -/
structure Returned (τ : Type) where
  started : Nat
  outcome : Outcome τ
  deriving DecidableEq, Repr

/-- A call of `Invalidate`. -/
structure Drop where
  number : Nat
  started : Nat
  /-- Whether `Delete` has succeeded, once it has returned. -/
  deleted : Option Bool := none
  deriving DecidableEq, Repr

/-- A call of `Invalidate` that has returned. -/
structure Dropped where
  started : Nat
  returned : Nat
  ok : Bool
  deriving DecidableEq, Repr

/-- What there is for one key. -/
structure Slot (ρ τ : Type) where
  entry : Option (Entry τ) := none
  flights : ρ → Option (Flight τ) := fun _ => none
  calls : List (Call ρ τ) := []
  returned : List (Returned τ) := []
  drops : List Drop := []
  dropped : List Dropped := []
  loads : Nat := 0
  values : List τ := []
  clock : Nat := 0

/-- A step of a call, or of the cache. -/
inductive Event (ρ τ : Type) where
  | get (n : Nat) (r : ρ)
  | read (n : Nat) (ok : Bool)
  | do_ (n : Nat)
  | reread (r : ρ) (ok : Bool)
  | load (r : ρ)
  | loaded (r : ρ) (res : Except Err τ)
  | set (r : ρ) (ok : Bool)
  | finish (r : ρ)
  | ret (n : Nat)
  | invalidate (n : Nat)
  | delete (n : Nat) (ok : Bool)
  | return_ (n : Nat)
  /-- The entry expires, or the cache drops it. -/
  | evict
  | foreign

/-- `l.get`: a failed read is a miss, and so is a value of another kind. -/
def Kind.lookup {τ : Type} (K : Kind τ) (entry : Option (Entry τ)) (ok : Bool) :
    Option (τ × Nat) :=
  match entry with
  | some (.value v since) => if ok && K.takes v then some (v, since) else none
  | _ => none

/-- The end of `Get`, after `Do`. -/
def Kind.deliver {τ : Type} (K : Kind τ) : Outcome τ → Outcome τ
  | .value v since => .value (if K.asserts v then v else K.zero) since
  | .failed err => .failed err

namespace Slot

variable {ρ τ : Type} [DecidableEq ρ]

/-- Call `n` goes on. -/
def move (s : Slot ρ τ) (n : Nat) (place : Place τ) : Slot ρ τ :=
  { s with calls := modify Call.number s.calls n fun c => { c with place } }

/-- The flight of loader `r` goes on. -/
def fly (s : Slot ρ τ) (r : ρ) (f : Flight τ) : Slot ρ τ :=
  { s with flights := Function.update s.flights r (some f) }

/-- A waiting call is given what its flight ended in. -/
def wake (r : ρ) (o : Outcome τ) (c : Call ρ τ) : Call ρ τ :=
  match c.place with
  | .waiting => if c.loader = r then { c with place := .done o } else c
  | _ => c

/-- `Do` takes the flight out of the group. -/
def land (s : Slot ρ τ) (r : ρ) (o : Outcome τ) : Slot ρ τ :=
  { s with
    flights := Function.update s.flights r none
    calls := s.calls.map (wake r o) }

/-- One step, but for the count. -/
def act (K : Kind τ) (s : Slot ρ τ) : Event ρ τ → Option (Slot ρ τ)
  | .get n r =>
    if (get Call.number s.calls n).isSome then none
    else some { s with calls := ⟨n, r, s.clock, .reading⟩ :: s.calls }
  | .read n ok =>
    (get Call.number s.calls n).bind fun c =>
      match c.place with
      | .reading =>
        match K.lookup s.entry ok with
        | some (v, since) => some (s.move n (.done (.value v since)))
        | none => some (s.move n .doing)
      | _ => none
  | .do_ n =>
    (get Call.number s.calls n).bind fun c =>
      match c.place with
      | .doing =>
        match s.flights c.loader with
        | some _ => some (s.move n .waiting)
        | none => some ((s.move n .waiting).fly c.loader .rereading)
      | _ => none
  | .reread r ok =>
    match s.flights r with
    | some .rereading =>
      match K.lookup s.entry ok with
      | some (v, since) => some (s.fly r (.ended (.value v since)))
      | none => some (s.fly r .loading)
    | _ => none
  | .load r =>
    match s.flights r with
    | some .loading => some { s.fly r (.inLoad s.clock) with loads := s.loads + 1 }
    | _ => none
  | .loaded r res =>
    match s.flights r with
    | some (.inLoad since) =>
      match res with
      | .error err => some (s.fly r (.ended (.failed err)))
      | .ok v => some { s.fly r (.storing v since) with values := v :: s.values }
    | _ => none
  | .set r ok =>
    match s.flights r with
    | some (.storing v since) =>
      some { s.fly r (.ended (.value v since)) with
        entry := if ok then some (.value v since) else s.entry }
    | _ => none
  | .finish r =>
    match s.flights r with
    | some (.ended o) => some (s.land r o)
    | _ => none
  | .ret n =>
    (get Call.number s.calls n).bind fun c =>
      match c.place with
      | .done o =>
        some { s with
          calls := remove Call.number s.calls n
          returned := ⟨c.started, K.deliver o⟩ :: s.returned }
      | _ => none
  | .invalidate n =>
    if (get Drop.number s.drops n).isSome then none
    else some { s with drops := { number := n, started := s.clock } :: s.drops }
  | .delete n ok =>
    (get Drop.number s.drops n).bind fun d =>
      match d.deleted with
      | none =>
        some { s with
          entry := if ok then none else s.entry
          drops := modify Drop.number s.drops n fun d => { d with deleted := some ok } }
      | some _ => none
  | .return_ n =>
    (get Drop.number s.drops n).bind fun d =>
      match d.deleted with
      | none => none
      | some ok =>
        some { s with
          drops := remove Drop.number s.drops n
          dropped := ⟨d.started, s.clock, ok⟩ :: s.dropped }
  | .evict => some { s with entry := none }
  | .foreign => some { s with entry := some .foreign }

/-- One step. -/
def step (K : Kind τ) (s : Slot ρ τ) (e : Event ρ τ) : Option (Slot ρ τ) :=
  (s.act K e).map fun s' => { s' with clock := s.clock + 1 }

end Slot

end Microjet.Cache
