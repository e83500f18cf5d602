import Microjet.Core.Errorx

/-!
# The circuit breaker (`httpx/breaker.go`)

`allow` and `record` run under the breaker's mutex, so each is one step. They read the clock
at most once, while they hold it. Times are in nanoseconds; `Time.Sub` saturates at the largest
`Duration`, which no cooldown exceeds.

`Traffic` is a breaker with the requests of `Client.Do` around it (`client.go`), any number at
a time: a request asks `allow`, and if admitted calls `record` some time later.
-/

namespace Microjet.Httpx

open Errorx

/-- `defaultBreakerThreshold` -/
def defaultBreakerThreshold : Int := 5

/-- `defaultBreakerCooldown` -/
def defaultBreakerCooldown : Int := 30000000000

/-- `breakerState` -/
inductive BreakerState where
  | breakerClosed
  | breakerOpen
  | breakerHalfOpen
  deriving DecidableEq, Repr

/-- `circuitBreaker` -/
structure CircuitBreaker where
  threshold : Int
  cooldown : Int
  state : BreakerState := .breakerClosed
  failures : Int := 0
  openedAt : Int := 0
  trialActive : Bool := false
  deriving DecidableEq, Repr

/-- `newCircuitBreaker` -/
def newCircuitBreaker (threshold : Int) (cooldown : Int) : CircuitBreaker where
  threshold := if threshold ≤ 0 then defaultBreakerThreshold else threshold
  cooldown := if cooldown ≤ 0 then defaultBreakerCooldown else cooldown

namespace CircuitBreaker

/-- `allow` -/
def allow (b : CircuitBreaker) (now : Int) : Bool × CircuitBreaker :=
  match b.state with
  | .breakerOpen =>
    if now - b.openedAt ≥ b.cooldown then
      (true, { b with state := .breakerHalfOpen, trialActive := true })
    else (false, b)
  | .breakerHalfOpen =>
    if !b.trialActive then (true, { b with trialActive := true })
    else (false, b)
  | .breakerClosed => (true, b)

/-- `record` -/
def record (b : CircuitBreaker) (now : Int) (success : Bool) : CircuitBreaker :=
  if success then
    { b with failures := 0, state := .breakerClosed, trialActive := false }
  else if b.state = .breakerHalfOpen then
    -- the trial failed: reopen and restart the cooldown
    { b with state := .breakerOpen, openedAt := now, trialActive := false }
  else if b.failures + 1 ≥ b.threshold then
    { b with failures := b.failures + 1, state := .breakerOpen, openedAt := now }
  else { b with failures := b.failures + 1 }

variable {b : CircuitBreaker} {now : Int}

theorem allow_refused (h : (b.allow now).1 = false) : (b.allow now).2 = b := by
  unfold allow at h ⊢
  split at h
  · split at h
    · simp at h
    · next hlt => simp [hlt]
  · split at h
    · simp at h
    · next hactive => simp [hactive]
  · simp at h

theorem allow_settings : (b.allow now).2.threshold = b.threshold ∧
    (b.allow now).2.cooldown = b.cooldown := by
  rw [allow]
  split <;> (try split) <;> exact ⟨rfl, rfl⟩

theorem record_settings {success : Bool} : (b.record now success).threshold = b.threshold ∧
    (b.record now success).cooldown = b.cooldown := by
  rw [record]
  split
  · exact ⟨rfl, rfl⟩
  · split
    · exact ⟨rfl, rfl⟩
    · split <;> exact ⟨rfl, rfl⟩

end CircuitBreaker

/-- A transport error (status 0) or a 5xx; a 4xx means the upstream responds. -/
def serverFailed (status : Int) (err : Option Err) : Bool :=
  err.isSome && (status == 0 || decide (status ≥ 500))

/-! ### Requests around the breaker -/

/-- A request let through, and whether the breaker was open or half-open; they are numbered. -/
structure Admission where
  id : Nat
  trial : Bool
  deriving DecidableEq, Repr

/-- A breaker and what it was asked. -/
structure Traffic where
  breaker : CircuitBreaker
  now : Int
  admitted : List Admission := []
  recorded : List Nat := []
  deriving DecidableEq, Repr

/-- A call of the breaker. -/
inductive Call where
  | allow (now : Int)
  | record (id : Nat) (now : Int) (success : Bool)
  deriving DecidableEq, Repr

/-- The call `Do` makes when the attempts of request `id` end. -/
def Call.ofAttempt (id : Nat) (now : Int) (status : Int) (err : Option Err) : Call :=
  .record id now (!serverFailed status err)

namespace Traffic

/-- Before the first call. -/
def start (threshold : Int) (cooldown : Int) (now : Int) : Traffic where
  breaker := newCircuitBreaker threshold cooldown
  now

/-- The requests that have not recorded. -/
def inFlight (s : Traffic) : List Admission :=
  s.admitted.filter fun a => a.id ∉ s.recorded

/-- The latest trial. -/
def lastTrial (s : Traffic) : Option Admission := s.admitted.find? (·.trial)

/-- A request is admitted. -/
def enter (s : Traffic) (now : Int) : Traffic :=
  { s with
    breaker := (s.breaker.allow now).2
    now
    admitted := ⟨s.admitted.length, s.breaker.state ≠ .breakerClosed⟩ :: s.admitted }

/-- One call; none goes back in time, and a `record` is of a request in flight. -/
def step (s : Traffic) : Call → Option Traffic
  | .allow now =>
    if now < s.now then none
    else if (s.breaker.allow now).1 then some (s.enter now)
    else some { s with breaker := (s.breaker.allow now).2, now }
  | .record id now success =>
    if now < s.now ∨ ∀ a ∈ s.inFlight, a.id ≠ id then none
    else
      some { s with
        breaker := s.breaker.record now success
        now
        recorded := id :: s.recorded }

end Traffic

end Microjet.Httpx
