import Microjet.Httpx.Breaker

/-!
# Requests one at a time (`httpx/client.go`)

`Do` asks the breaker, makes its attempts and records what they came to; of a client only the
breaker matters here. `Spec` is what the breaker is for: it keeps no state but the outcomes so
far, and refuses a request by a rule about them.
-/

namespace Microjet.Httpx

open Errorx

/-- `Client` -/
structure Client where
  breaker : Option CircuitBreaker := none
  deriving DecidableEq

/-- `WithCircuitBreaker` -/
def withCircuitBreaker (threshold cooldown : Int) (c : Client) : Client :=
  { c with breaker := some (newCircuitBreaker threshold cooldown) }

/-- A request: the two readings of the clock, and how the last attempt ended. -/
structure Request where
  url : String
  encodeErr : Option Err := none
  asked : Int
  answered : Int
  status : Int
  err : Option Err
  deriving DecidableEq

/-- How `Do` ends. -/
inductive Reply where
  | unencoded (err : Err)
  | refused (err : Err)
  | attempted (err : Option Err)
  deriving DecidableEq

namespace Request

/-- The error for a body that does not encode. -/
def encodeFailure (err : Err) : Err :=
  (newInternalError "http" "encoding request body failed").withInner err

/-- The error for a refused request. -/
def breakerFailure (r : Request) : Err :=
  (newInternalError "http" "upstream circuit breaker is open").withParams [("url", r.url)]

/-- What `Do` records. -/
def serverFailed (r : Request) : Bool := Httpx.serverFailed r.status r.err

end Request

/-- `Do` -/
def Client.do_ (c : Client) (r : Request) : Reply × Client :=
  match r.encodeErr with
  | some err => (.unencoded (Request.encodeFailure err), c)
  | none =>
    match c.breaker with
    | none => (.attempted r.err, c)
    | some b =>
      match b.allow r.asked with
      | (false, b) => (.refused r.breakerFailure, { c with breaker := some b })
      | (true, b) =>
        (.attempted r.err,
          { c with breaker := some (b.record r.answered (!r.serverFailed)) })

/-- How an attempt ends: no request, no response, a broken one, or a whole one, perhaps
undecodable. -/
inductive Ending where
  | unbuilt (err : Err)
  | unanswered (err : Err)
  | brokenOff (status : Int) (err : Err)
  | answered (status : Int) (body : String) (decodeErr : Option Err := none)
  deriving DecidableEq

/-- What `doOnce` returns: the status, 0 for a failure of the transport, and the error. -/
def doOnce (url : String) : Ending → Int × Option Err
  | .unbuilt err => (0, some ((newInternalError "http" "building request failed").withInner err))
  | .unanswered err =>
    (0, some (((newInternalError "http" "request failed").withParams
      [("url", url)]).withInner err))
  | .brokenOff status err =>
    (0, some (((newInternalError "http" "reading response body failed").withParams
      [("status", toString status), ("url", url)]).withInner err))
  | .answered status body decodeErr =>
    if status < 200 ∨ status ≥ 300 then
      (status, some ((newInternalError "http" ("upstream returned " ++ toString status)).withParams
        [("status", toString status), ("body", body), ("url", url)]))
    else (status, decodeErr.map fun err =>
      ((newInternalError "http" "decoding response body failed").withParams
        [("body", body)]).withInner err)

/-- A request by how its last attempt ended. -/
structure Sent where
  url : String
  encodeErr : Option Err := none
  asked : Int
  answered : Int
  ending : Ending
  deriving DecidableEq

/-- The request, with what `doOnce` returns. -/
def Sent.request (r : Sent) : Request where
  url := r.url
  encodeErr := r.encodeErr
  asked := r.asked
  answered := r.answered
  status := (doOnce r.url r.ending).1
  err := (doOnce r.url r.ending).2

/-! ### What it is for -/

namespace Spec

/-- A failure of the server: a transport error or a 5xx. -/
def serverSide : Ending → Bool
  | .unbuilt _ => false
  | .unanswered _ | .brokenOff _ _ => true
  | .answered status _ _ => 500 ≤ status && status ≤ 599

/-- When a request ended, and how. -/
structure Outcome where
  time : Int
  failed : Bool
  deriving DecidableEq

/-- The failures since the last other outcome. The newest outcome comes first. -/
def trailing (h : List Outcome) : List Outcome := h.takeWhile (·.failed)

/-- So many failures in a row, and the last of them is not so long ago. -/
def refuses (threshold cooldown : Int) (h : List Outcome) (now : Int) : Bool :=
  decide (threshold ≤ (trailing h).length) &&
    (trailing h).head?.any fun o => decide (now - o.time < cooldown)

/-- The abstract client. -/
def do_ (threshold cooldown : Int) (h : List Outcome) (r : Sent) : Reply × List Outcome :=
  match r.encodeErr with
  | some err => (.unencoded (Request.encodeFailure err), h)
  | none =>
    if refuses threshold cooldown h r.asked then (.refused r.request.breakerFailure, h)
    else (.attempted r.request.err, ⟨r.answered, serverSide r.ending⟩ :: h)

/-- The requests that are attempted. -/
def attempted (threshold cooldown : Int) : List Outcome → List Sent → List Sent
  | _, [] => []
  | h, r :: rs =>
    let rest := attempted threshold cooldown (do_ threshold cooldown h r).2 rs
    if r.encodeErr = none ∧ refuses threshold cooldown h r.asked = false then r :: rest
    else rest

end Spec

end Microjet.Httpx
