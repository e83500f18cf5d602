import Mathlib.Data.Rat.Defs
import Mathlib.Algebra.Order.Ring.Rat
import Microjet.Lib.TokenBucket
import Microjet.Middleware.Gin

/-!
# The rate limiter (`httpx/middleware/rate_limit.go`)

Times and rates are rational numbers, in seconds. `rate.Limiter` is a token bucket with the
rate and the burst of the store it is in.
-/

namespace Microjet.Middleware

open Gin TokenBucket

/-- `RateLimitConfig` -/
structure RateLimitConfig (κ : Type) where
  rps : ℚ
  burst : Int := 0
  keyFunc : Option (κ → GoString) := none
  idleTTL : ℚ := 0

namespace RateLimitConfig

variable {κ : Type}

/-- The burst, which defaults to `max(1, int(cfg.RPS))`. -/
def bucketSize (cfg : RateLimitConfig κ) : Int :=
  if cfg.burst ≤ 0 then max 1 (cfg.rps.num.tdiv cfg.rps.den) else cfg.burst

/-- The idle time, which defaults to ten minutes. -/
def ttl (cfg : RateLimitConfig κ) : ℚ := if cfg.idleTTL ≤ 0 then 10 * 60 else cfg.idleTTL

/-- The key of a request. -/
def key (cfg : RateLimitConfig κ) (clientIP : κ → GoString) (c : κ) : GoString :=
  match cfg.keyFunc with
  | some keyFunc => keyFunc c
  | none => clientIP c

end RateLimitConfig

/-- `rate.Limiter` -/
abbrev Limiter := Bucket ℚ

/-- `rate.NewLimiter` -/
def newLimiter (burst : Int) (now : ℚ) : Limiter := ⟨burst, now⟩

/-- `clientLimiter` -/
structure ClientLimiter where
  limiter : Limiter
  lastSeen : ℚ

/-- `limiterStore` -/
structure LimiterStore where
  limiters : GoString → Option ClientLimiter
  rps : ℚ
  burst : Int
  ttl : ℚ
  lastCleanup : ℚ

namespace LimiterStore

/-- `sweep` -/
def sweep (s : LimiterStore) (now : ℚ) : LimiterStore :=
  if s.ttl < now - s.lastCleanup then
    { s with
      limiters := fun k => (s.limiters k).filter fun cl => decide (now - cl.lastSeen ≤ s.ttl)
      lastCleanup := now }
  else s

/-- The limiter of a key, or a new one. -/
def limiterOf (s : LimiterStore) (key : GoString) (now : ℚ) : Limiter :=
  match s.limiters key with
  | some cl => cl.limiter
  | none => newLimiter s.burst now

/-- `get` -/
def get (s : LimiterStore) (key : GoString) (now : ℚ) : Limiter × LimiterStore :=
  let s := s.sweep now
  let limiter := s.limiterOf key now
  (limiter, { s with limiters := Function.update s.limiters key (some ⟨limiter, now⟩) })

/-- A limiter has changed. -/
def setLimiter (s : LimiterStore) (key : GoString) (limiter : Limiter) : LimiterStore :=
  { s with
    limiters := Function.update s.limiters key
      ((s.limiters key).map fun cl => { cl with limiter := limiter }) }

end LimiterStore

/-- A request and what `time.Now` says to store and limiter. -/
structure Arrival (κ : Type) where
  now : ℚ
  ctx : κ

/-- What the middleware does: run the rest of the chain, or abort it after some calls. -/
inductive Verdict where
  | next
  | abort (calls : List Call)

/-- The request is let through. -/
def Verdict.admits : Verdict → Bool
  | .next => true
  | .abort _ => false

/-- The body of the 429. -/
def tooManyRequestsBody : GoString :=
  bytes "\x7b\"error\":\"too_many_requests\",\"message\":\"rate limit exceeded\"\x7d"

/-- The calls that write it. -/
def tooManyRequests : List Call :=
  .header (fun h => h.set (bytes "Retry-After") (bytes "1")) :: json 429 tooManyRequestsBody

variable {κ : Type}

/-- `newLimiterStore` -/
def newLimiterStore (cfg : RateLimitConfig κ) (start : ℚ) : LimiterStore where
  limiters := fun _ => none
  rps := cfg.rps
  burst := cfg.bucketSize
  ttl := cfg.ttl
  lastCleanup := start

/-- `RateLimit` -/
def rateLimit (clientIP : κ → GoString) (cfg : RateLimitConfig κ) (s : LimiterStore)
    (r : Arrival κ) : Verdict × LimiterStore :=
  let key := cfg.key clientIP r.ctx
  let (limiter, s) := s.get key r.now
  let (allowed, limiter) := limiter.take s.rps s.burst r.now
  (if allowed then .next else .abort tooManyRequests, s.setLimiter key limiter)

/-- How many requests of a client are admitted from `a` to `a + d`, if these are all there were. -/
def admitted (clientIP : κ → GoString) (cfg : RateLimitConfig κ) (start : ℚ) (client : GoString)
    (a d : ℚ) (requests : List (Arrival κ)) : Nat :=
  countIn (rateLimit clientIP cfg) Arrival.now
    (fun r verdict => decide (cfg.key clientIP r.ctx = client) && verdict.admits)
    a (a + d) (newLimiterStore cfg start) requests

end Microjet.Middleware
