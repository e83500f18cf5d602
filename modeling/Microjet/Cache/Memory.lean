import Microjet.Core.Go

/-!
# The in-memory cache (`cache/memory.go`)

`Get`, `Set` and `Delete` by any number of goroutines, where a lock region is one step and so
is a look at the clock, which never goes back. A time is in nanoseconds after the zero time,
which stands for no expiry. A step says what it did, for what is said about schedules.
-/

namespace Microjet.Cache

/-- `memoryEntry` -/
structure MemoryEntry (τ : Type) where
  value : τ
  expiresAt : Int
  deriving DecidableEq, Repr

/-- `!e.expiresAt.IsZero() && now.After(e.expiresAt)`. -/
def MemoryEntry.expired {τ : Type} (e : MemoryEntry τ) (now : Int) : Bool :=
  e.expiresAt ≠ 0 && e.expiresAt < now

/-- Where a goroutine is. -/
inductive MemoryAt (τ : Type) where
  | reading (key : GoString)
  /-- `Get` has an entry with an expiry, and is about to look at the clock. -/
  | looking (key : GoString) (e : MemoryEntry τ)
  /-- It has found its entry expired, and is about to take the lock. -/
  | rechecking (key : GoString)
  | returning (res : Option τ)
  | stamping (key : GoString) (value : τ) (ttl : Int)
  | storing (key : GoString) (e : MemoryEntry τ)
  | deleting (key : GoString)
  | done
  deriving DecidableEq, Repr

/-- `MemoryCache`, its clock and the goroutines in it. -/
structure MemoryCache (τ : Type) where
  entries : GoString → Option (MemoryEntry τ)
  now : Int
  goroutines : Nat → Option (MemoryAt τ)

/-- A step, with what it did. -/
inductive MemoryEvent (τ : Type) where
  | tick (now : Int)
  | get (g : Nat) (key : GoString)
  | read (g : Nat)
  | look (g : Nat)
  | recheck (g : Nat) (key : GoString) (removed : Bool)
  | ret (g : Nat) (res : Option τ)
  | set (g : Nat) (key : GoString) (value : τ) (ttl : Int)
  | stamp (g : Nat)
  | store (g : Nat) (key : GoString) (e : MemoryEntry τ)
  | delete (g : Nat) (key : GoString)
  | remove (g : Nat) (key : GoString)
  | done (g : Nat)
  deriving DecidableEq, Repr

variable {τ : Type}

/-- `NewMemoryCache` -/
def newMemoryCache (now : Int) : MemoryCache τ where
  entries := fun _ => none
  now := now
  goroutines := fun _ => none

namespace MemoryCache

/-- Goroutine `g` goes on. -/
def goto (s : MemoryCache τ) (g : Nat) (a : MemoryAt τ) : MemoryCache τ :=
  { s with goroutines := Function.update s.goroutines g (some a) }

def exit (s : MemoryCache τ) (g : Nat) : MemoryCache τ :=
  { s with goroutines := Function.update s.goroutines g none }

/-- An entry is stored or removed. -/
def put (s : MemoryCache τ) (key : GoString) (e : Option (MemoryEntry τ)) : MemoryCache τ :=
  { s with entries := Function.update s.entries key e }

/-- Goroutine `g` calls. -/
def call (s : MemoryCache τ) (g : Nat) (a : MemoryAt τ) : Option (MemoryCache τ) :=
  match s.goroutines g with
  | none => some (s.goto g a)
  | some _ => none

/-- The entry has expired. -/
def stale (s : MemoryCache τ) (key : GoString) : Bool :=
  match s.entries key with
  | some e => e.expired s.now
  | none => false

variable [DecidableEq τ]

/-- One step. -/
def step (s : MemoryCache τ) : MemoryEvent τ → Option (MemoryCache τ)
  | .tick now => if s.now ≤ now then some { s with now := now } else none
  | .get g key => s.call g (.reading key)
  | .read g =>
    match s.goroutines g with
    | some (.reading key) =>
      match s.entries key with
      | none => some (s.goto g (.returning none))
      | some e =>
        some (s.goto g
          (if e.expiresAt = 0 then .returning (some e.value) else .looking key e))
    | _ => none
  | .look g =>
    match s.goroutines g with
    | some (.looking key e) =>
      some (s.goto g
        (if e.expiresAt < s.now then .rechecking key else .returning (some e.value)))
    | _ => none
  | .recheck g key removed =>
    if s.goroutines g = some (.rechecking key) ∧ s.stale key = removed then
      some ((if removed then s.put key none else s).goto g (.returning none))
    else none
  | .ret g res => if s.goroutines g = some (.returning res) then some (s.exit g) else none
  | .set g key value ttl => s.call g (.stamping key value ttl)
  | .stamp g =>
    match s.goroutines g with
    | some (.stamping key value ttl) =>
      some (s.goto g (.storing key ⟨value, if 0 < ttl then s.now + ttl else 0⟩))
    | _ => none
  | .store g key e =>
    if s.goroutines g = some (.storing key e) then some ((s.put key (some e)).goto g .done)
    else none
  | .delete g key => s.call g (.deleting key)
  | .remove g key =>
    if s.goroutines g = some (.deleting key) then some ((s.put key none).goto g .done)
    else none
  | .done g => if s.goroutines g = some .done then some (s.exit g) else none

end MemoryCache

end Microjet.Cache
