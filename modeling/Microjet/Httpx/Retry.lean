import Mathlib.Algebra.Order.Group.Int
import Microjet.Core.Go
import Microjet.Httpx.Client

/-!
# Retries (`httpx/client.go`)

`Do` with its attempts. How each of them ends, the random numbers and whether the context ends
during a wait are in an `Exchange`. Durations are `int64`s of nanoseconds, and the shift in
`backoff` wraps around.
-/

namespace Microjet.Httpx

open Errorx

/-- `defaultMaxBackoff` -/
def defaultMaxBackoff : Int := 30000000000

/-- `retryPolicy` -/
structure RetryPolicy where
  max : Int := 0
  base : Int := 100000000
  maxBackoff : Int := defaultMaxBackoff
  methods : List GoString :=
    [bytes "GET", bytes "HEAD", bytes "PUT", bytes "DELETE", bytes "OPTIONS"]
  statuses : List Int := [429, 500, 502, 503, 504]

/-- A client with its retry policy, as `NewClient` makes it without options. -/
structure RetryClient extends Client where
  retry : RetryPolicy := {}

/-- `WithRetry` -/
def withRetry (maxRetries baseBackoff : Int) (c : RetryClient) : RetryClient :=
  { c with
    retry := { c.retry with
      max := maxRetries
      base := if baseBackoff > 0 then baseBackoff else c.retry.base } }

/-- `WithRetryableStatuses` -/
def withRetryableStatuses (statuses : List Int) (c : RetryClient) : RetryClient :=
  { c with retry := { c.retry with statuses } }

/-- An `int64` from what it would be without a bound. -/
def int64 (x : Int) : Int := x.bmod UInt64.size

/-- `rand.Int64N(n)`, a number from 0 up to `n`; any of them can be drawn. -/
def int64N (draw : Nat) (n : Int) : Int := draw % n

/-- The delay before it is spread: the base is doubled with every attempt. -/
def RetryPolicy.delay (p : RetryPolicy) (attempt : Nat) : Int :=
  if attempt - 1 < 31 then
    let grown := int64 (p.base * 2 ^ (attempt - 1))
    if grown > 0 ∧ grown < p.maxBackoff then grown else p.maxBackoff
  else p.maxBackoff

/-- `backoff` -/
def RetryPolicy.backoff (p : RetryPolicy) (attempt draw : Nat) : Int :=
  let d := p.delay attempt
  let half := d.tdiv 2
  if half ≤ 0 then d else half + int64N draw (half + 1)

/-- What `doOnce` returns. -/
structure Attempt where
  status : Int := 0
  err : Option Err := none
  deriving DecidableEq

/-- A request and all that is outside of `Do`. -/
structure Exchange where
  method : GoString
  url : String
  encodeErr : Option Err := none
  asked : Int
  answered : Int
  outcome : Nat → Attempt
  draw : Nat → Nat
  ended : Nat → Bool

/-- What `Do` does. -/
inductive Action where
  | allow (admitted : Bool)
  | wait (attempt : Nat) (d : Int)
  | send (attempt : Nat)
  | record (success : Bool)
  deriving DecidableEq

section Loop

variable (toUpper : GoString → GoString)

/-- `WithRetryableMethods` -/
def withRetryableMethods (methods : List GoString) (c : RetryClient) : RetryClient :=
  { c with retry := { c.retry with methods := methods.map toUpper } }

/-- `ClientOption` -/
inductive ClientOption where
  | retry (maxRetries baseBackoff : Int)
  | circuitBreaker (threshold cooldown : Int)
  | retryableMethods (methods : List GoString)
  | retryableStatuses (statuses : List Int)

/-- An option is applied. -/
def ClientOption.apply (c : RetryClient) : ClientOption → RetryClient
  | .retry maxRetries baseBackoff => withRetry maxRetries baseBackoff c
  | .circuitBreaker threshold cooldown =>
    { c with toClient := withCircuitBreaker threshold cooldown c.toClient }
  | .retryableMethods methods => withRetryableMethods toUpper methods c
  | .retryableStatuses statuses => withRetryableStatuses statuses c

/-- `NewClient` -/
def newClient (opts : List ClientOption) : RetryClient :=
  opts.foldl (ClientOption.apply toUpper) {}

/-- `shouldRetry` -/
def RetryPolicy.shouldRetry (p : RetryPolicy) (method : GoString) (status : Int) : Bool :=
  if p.max = 0 || !p.methods.contains (toUpper method) then false
  else if status = 0 then true
  else p.statuses.contains status

/-- The wait before attempt `n`. -/
def RetryPolicy.waitFor (p : RetryPolicy) (x : Exchange) (n : Nat) : List Action :=
  if n > 0 then [.wait n (p.backoff n (x.draw n))] else []

/-- The loop of `attempt` from attempt `n` on, with the outcome before; the fuel is enough. -/
def RetryPolicy.attemptFrom (p : RetryPolicy) (x : Exchange) :
    Nat → Nat → Attempt → List Action × Attempt
  | 0, _, last => ([], last)
  | fuel + 1, n, last =>
    if n > 0 ∧ x.ended n = true then (p.waitFor x n, last)
    else
      let o := x.outcome n
      if o.err = none then (p.waitFor x n ++ [.send n], o)
      else if (n : Int) ≥ p.max ∨ p.shouldRetry toUpper x.method o.status = false then
        (p.waitFor x n ++ [.send n], o)
      else
        let rest := attemptFrom p x fuel (n + 1) o
        (p.waitFor x n ++ .send n :: rest.1, rest.2)

/-- `attempt` -/
def RetryPolicy.attempt (p : RetryPolicy) (x : Exchange) : List Action × Attempt :=
  p.attemptFrom toUpper x (p.max.toNat + 1) 0 {}

/-- The exchange, with its last attempt. -/
def Exchange.request (x : Exchange) (o : Attempt) : Request where
  url := x.url
  encodeErr := x.encodeErr
  asked := x.asked
  answered := x.answered
  status := o.status
  err := o.err

/-- `Do` -/
def RetryClient.do_ (c : RetryClient) (x : Exchange) : List Action × Reply × RetryClient :=
  match x.encodeErr with
  | some err => ([], .unencoded (Request.encodeFailure err), c)
  | none =>
    match c.breaker with
    | none =>
      let r := c.retry.attempt toUpper x
      (r.1, .attempted r.2.err, c)
    | some b =>
      match b.allow x.asked with
      | (false, b) =>
        ([.allow false], .refused (x.request {}).breakerFailure,
          { c with breaker := some b })
      | (true, b) =>
        let r := c.retry.attempt toUpper x
        let success := !serverFailed r.2.status r.2.err
        (.allow true :: r.1 ++ [.record success], .attempted r.2.err,
          { c with breaker := some (b.record x.answered success) })

end Loop

end Microjet.Httpx
