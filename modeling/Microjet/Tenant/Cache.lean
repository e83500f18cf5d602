import Microjet.Core.Errorx
import Microjet.Lib.Registry
import Mathlib.Logic.Function.Basic

/-!
# The tenant cache (`core/tenant/cache.go`)

The map of a `CachedStore` is a `sync.Map`: each of `Load`, `Store`, `Delete` and `Clear` is
one step, so a `FindTenant` is a load, perhaps a delete, a call of the wrapped store and a
store of what it said, and anything may happen in between. The wrapped store and the clock
answer what they like. Events are counted, for what is said about calls; nothing depends on
the numbers.
-/

namespace Microjet.Tenant

open Errorx Registry

/-- What `FindTenant` returns. -/
structure Answer (τ : Type) where
  tenant : Option τ
  err : Option Err
  deriving DecidableEq, Repr

/-- `cacheEntry` -/
structure CacheEntry (τ : Type) where
  tenant : Option τ := none
  err : Option Err := none
  expiresAt : Int := 0
  deriving DecidableEq, Repr

/-- `CachedStore` -/
structure CachedStore (ι τ : Type) where
  ttl : Int
  negativeTTL : Int := 0
  /-- Tells `WithNegativeTTL(0)` from the option not being passed. -/
  negativeTTLSet : Bool := false
  cache : ι → Option (CacheEntry τ) := fun _ => none

/-- `WithNegativeTTL`. `WithClock` sets the time source, which is part of the events here. -/
def withNegativeTTL {ι τ : Type} (ttl : Int) (c : CachedStore ι τ) : CachedStore ι τ :=
  { c with negativeTTL := ttl, negativeTTLSet := true }

/-- `NewCachedStore` -/
def newCachedStore {ι τ : Type} (ttl : Int)
    (opts : List (CachedStore ι τ → CachedStore ι τ)) : CachedStore ι τ :=
  opts.foldl (fun c opt => opt c) { ttl }

namespace CachedStore

variable {ι τ : Type} [DecidableEq ι]

/-- How long an absence is kept. -/
def absentTTL (c : CachedStore ι τ) : Int :=
  if c.negativeTTLSet then c.negativeTTL else c.ttl

/-- `remember` -/
def remember (c : CachedStore ι τ) (id : ι) (entry : CacheEntry τ) (ttl now : Int) :
    CachedStore ι τ :=
  if ttl ≤ 0 then c
  else
    { c with cache := Function.update c.cache id (some { entry with expiresAt := now + ttl }) }

/-- `Invalidate` -/
def invalidate (c : CachedStore ι τ) (id : ι) : CachedStore ι τ :=
  { c with cache := Function.update c.cache id none }

/-- `Clear` -/
def clear (c : CachedStore ι τ) : CachedStore ι τ := { c with cache := fun _ => none }

/-- `FindTenant` from the answer of the wrapped store on: what it returns, and the
cache. -/
def settle (c : CachedStore ι τ) (id : ι) (a : Answer τ) (now : Int) :
    Answer τ × CachedStore ι τ :=
  match a.err with
  | some err =>
    if err.isNotFoundError then
      (⟨none, some err⟩, c.remember id { err := some err } c.absentTTL now)
    else (⟨none, some err⟩, c)
  | none =>
    match a.tenant with
    | none => (⟨none, none⟩, c.remember id {} c.absentTTL now)
    | some t => (⟨some t, none⟩, c.remember id { tenant := some t } c.ttl now)

/-- The answer is kept. -/
def keeps (c : CachedStore ι τ) (a : Answer τ) : Bool :=
  match a.err with
  | some err => err.isNotFoundError && decide (0 < c.absentTTL)
  | none => decide (0 < if a.tenant.isSome then c.ttl else c.absentTTL)

end CachedStore

/-- Where a lookup is. -/
inductive Place (τ : Type) where
  | loading
  | deleting
  | asking
  /-- The wrapped store has answered, as the event with this number. -/
  | answered (a : Answer τ) (answeredAt : Nat)
  deriving DecidableEq, Repr

/-- A `FindTenant` that is running. -/
structure Lookup (ι τ : Type) where
  number : Nat
  id : ι
  started : Nat
  place : Place τ

/-- One that has returned. -/
structure Found (ι τ : Type) where
  id : ι
  started : Nat
  answer : Answer τ
  answeredAt : Nat
  deriving DecidableEq, Repr

/-- A call of `Invalidate`, or of `Clear` when there is no target. -/
structure Drop (ι : Type) where
  number : Nat
  target : Option ι
  started : Nat
  done : Bool

/-- An `Invalidate` or `Clear` that has returned. -/
structure Dropped (ι : Type) where
  target : Option ι
  started : Nat
  returned : Nat
  deriving DecidableEq, Repr

/-- The drop is about the id. -/
def covers {ι : Type} [DecidableEq ι] (target : Option ι) (id : ι) : Bool :=
  match target with
  | none => true
  | some i => i = id

/-- A `CachedStore` with the calls on it. -/
structure Service (ι τ : Type) where
  store : CachedStore ι τ
  clock : Nat := 0
  /-- For an id with an entry, when the wrapped store said so. -/
  origin : ι → Nat := fun _ => 0
  lookups : List (Lookup ι τ) := []
  found : List (Found ι τ) := []
  drops : List (Drop ι) := []
  dropped : List (Dropped ι) := []

/-- A step of a call. -/
inductive Event (ι τ : Type) where
  | find (n : Nat) (id : ι)
  | load (n : Nat) (now : Int)
  | expire (n : Nat)
  | answer (n : Nat) (a : Answer τ)
  /-- `remember`, at the time the clock says, and the return. -/
  | remember (n : Nat) (now : Int)
  | drop (n : Nat) (target : Option ι)
  | apply (n : Nat)
  | return_ (n : Nat)

namespace Service

variable {ι τ : Type} [DecidableEq ι]

/-- A lookup goes on. -/
def move (s : Service ι τ) (n : Nat) (place : Place τ) : Service ι τ :=
  { s with lookups := modify Lookup.number s.lookups n fun l => { l with place } }

/-- A lookup returns. -/
def finish (s : Service ι τ) (l : Lookup ι τ) (answer : Answer τ) (answeredAt : Nat) :
    Service ι τ :=
  { s with
    lookups := remove Lookup.number s.lookups l.number
    found := ⟨l.id, l.started, answer, answeredAt⟩ :: s.found }

/-- `Load` -/
def loadStep (s : Service ι τ) (l : Lookup ι τ) (now : Int) : Service ι τ :=
  match s.store.cache l.id with
  | none => s.move l.number .asking
  | some entry =>
    if now < entry.expiresAt then
      s.finish l ⟨entry.tenant, entry.err⟩ (s.origin l.id)
    else s.move l.number .deleting

/-- The answer is stored. -/
def rememberStep (s : Service ι τ) (l : Lookup ι τ) (a : Answer τ) (answeredAt : Nat)
    (now : Int) : Service ι τ :=
  { s.finish l (s.store.settle l.id a now).1 answeredAt with
    store := (s.store.settle l.id a now).2
    origin := if s.store.keeps a then Function.update s.origin l.id answeredAt else s.origin }

/-- `Delete` or `Clear`. -/
def applyStep (s : Service ι τ) (d : Drop ι) : Service ι τ :=
  { s with
    store :=
      match d.target with
      | none => s.store.clear
      | some id => s.store.invalidate id
    drops := modify Drop.number s.drops d.number fun d => { d with done := true } }

/-- One step, but for the count. -/
def act (s : Service ι τ) : Event ι τ → Option (Service ι τ)
  | .find n id =>
    if (get Lookup.number s.lookups n).isSome then none
    else some { s with lookups := ⟨n, id, s.clock, .loading⟩ :: s.lookups }
  | .load n now =>
    (get Lookup.number s.lookups n).bind fun l =>
      match l.place with
      | .loading => some (s.loadStep l now)
      | _ => none
  | .expire n =>
    (get Lookup.number s.lookups n).bind fun l =>
      match l.place with
      | .deleting => some { s.move n .asking with store := s.store.invalidate l.id }
      | _ => none
  | .answer n a =>
    (get Lookup.number s.lookups n).bind fun l =>
      match l.place with
      | .asking => some (s.move n (.answered a s.clock))
      | _ => none
  | .remember n now =>
    (get Lookup.number s.lookups n).bind fun l =>
      match l.place with
      | .answered a answeredAt => some (s.rememberStep l a answeredAt now)
      | _ => none
  | .drop n target =>
    if (get Drop.number s.drops n).isSome then none
    else some { s with drops := ⟨n, target, s.clock, false⟩ :: s.drops }
  | .apply n =>
    (get Drop.number s.drops n).bind fun d =>
      if d.done then none else some (s.applyStep d)
  | .return_ n =>
    (get Drop.number s.drops n).bind fun d =>
      if d.done then
        some { s with
          drops := remove Drop.number s.drops n
          dropped := ⟨d.target, d.started, s.clock⟩ :: s.dropped }
      else none

/-- One step. -/
def step (s : Service ι τ) (e : Event ι τ) : Option (Service ι τ) :=
  (s.act e).map fun s' => { s' with clock := s.clock + 1 }

end Service

end Microjet.Tenant
