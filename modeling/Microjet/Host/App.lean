import Mathlib.Logic.Function.Basic
import Microjet.Core.Errorx

/-!
# The application and its container (`host/host.go`, `host/service.go`)

`App` is what the lifecycle reads and writes. Keys and instances are any types; two keys with
the same instance hold the same pointer, and `Service` says what it implements. The walks over
the container are part of the phases, since a hook may run between two keys.
-/

namespace Microjet.Host

open Errorx

/-- The phases of a service. -/
inductive Phase where
  | config
  | init
  | setup
  | start
  | close
  deriving DecidableEq, Repr

/-- `CloseDefault` -/
def closeDefault : Int := 50

/-- What an instance implements, in the host's form or in the one of `core`. -/
structure Service where
  configurable : Bool := false
  initer : Bool := false
  setupper : Bool := false
  starter : Bool := false
  closer : Bool := false
  /-- `AsyncWorker`, which a `PeriodicWorker` is too. -/
  worker : Bool := false
  comparable : Bool := true
  errSource : Bool := false
  order : Int := closeDefault
  deriving DecidableEq, Repr

/-- The service has the hook. -/
def Service.has (v : Service) : Phase → Bool
  | .config => v.configurable
  | .init => v.initer
  | .setup => v.setupper
  | .start => v.starter
  | .close => v.closer

/-- The container with the log of its keys, in the order of first registration; only `storeKey`
writes it. -/
structure Container (K I : Type) where
  keys : List K
  load : K → Option I
  nodup : keys.Nodup
  mem_keys : ∀ k, k ∈ keys ↔ (load k).isSome = true

namespace Container

variable {K I : Type}

/-- The empty container. -/
def empty : Container K I := ⟨[], fun _ => none, .nil, fun _ => by simp⟩

/-- `storeKey`: a key that is there keeps its place and gets the new value. -/
def storeKey [DecidableEq K] (c : Container K I) (key : K) (value : I) : Container K I where
  keys := if (c.load key).isSome then c.keys else c.keys ++ [key]
  load := Function.update c.load key (some value)
  nodup := by
    split
    next => exact c.nodup
    next hnew =>
      rw [← c.mem_keys] at hnew
      exact c.nodup.append (List.nodup_singleton key) (List.disjoint_singleton.mpr hnew)
  mem_keys := fun k => by
    by_cases hk : k = key
    · subst hk
      rw [Function.update_self]
      split
      next hold => simp [c.mem_keys, hold]
      next => simp
    · rw [Function.update_of_ne hk, ← c.mem_keys k]
      split <;> simp [hk]

theorem load_storeKey [DecidableEq K] (c : Container K I) (key k : K) (value : I) :
    (c.storeKey key value).load k = if k = key then some value else c.load k := by
  show Function.update c.load key (some value) k = _
  rw [Function.update_apply]

theorem keys_storeKey_of_mem [DecidableEq K] {c : Container K I} {key : K} {value : I}
    (h : key ∈ c.keys) : (c.storeKey key value).keys = c.keys :=
  if_pos ((c.mem_keys key).mp h)

theorem keys_sublist_storeKey [DecidableEq K] (c : Container K I) (key : K) (value : I) :
    c.keys.Sublist (c.storeKey key value).keys := by
  show c.keys.Sublist (if (c.load key).isSome then c.keys else c.keys ++ [key])
  split
  · exact List.Sublist.refl _
  · exact List.sublist_append_left _ _

end Container

/-- `App` -/
structure App (K I H W : Type) where
  container : Container K I := .empty
  setups : List H := []
  workers : List W := []
  isServiceInitialized : Bool := false
  isServiceSetup : Bool := false
  isServiceStarted : Bool := false
  err : Option Err := none
  workerCtx : Bool := false
  workerWg : Bool := false
  fatalCh : Bool := false

namespace App

variable {K I H W : Type}

/-- `storeKey` -/
def storeKey [DecidableEq K] (a : App K I H W) (key : K) (value : I) : App K I H W :=
  { a with container := a.container.storeKey key value }

/-- `fail` keeps the first error. -/
def fail (a : App K I H W) (err : Err) : App K I H W :=
  { a with err := a.err.or (some err) }

/-- `WithWorker` -/
def withWorker (a : App K I H W) (w : W) : App K I H W :=
  { a with workers := a.workers ++ [w] }

/-- A service can report a fatal error. -/
def fatalErrCh (svc : I → Service) (a : App K I H W) : Bool :=
  a.container.keys.any fun k => (a.container.load k).any fun i => (svc i).errSource

end App

/-- The order of `closeServices`: ascending, and the last registered first among equals. -/
def closeSequence {K I : Type} (svc : I → Service) (entries : List (K × I)) : List (K × I) :=
  entries.reverse.insertionSort fun e f => (svc e.2).order ≤ (svc f.2).order

end Microjet.Host
