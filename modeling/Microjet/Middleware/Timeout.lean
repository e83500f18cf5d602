import Microjet.Middleware.Gin

/-!
# The timeout middleware (`httpx/middleware/timeout.go`)

`timeoutWriter` stands between the handler and gin's writer, its methods under its mutex. It
leaves the buffering state once, to `stTimedOut` with the 503 or to `stPassthrough` with the
buffered response or, after a panic, with nothing.

`Race` is one request under `Timeout(d)` with a positive `d`: the request goroutine, statement
by statement, the watcher, the context and the clock, and after the return the calls of the
outer layers on the same writer. The map that `Header` returns is the handler's own until the
commit, whether the request has timed out or not.
-/

namespace Microjet.Middleware

open Errorx Gin

/-- `writerState` -/
inductive WriterState where
  | stBuffering
  | stPassthrough
  | stTimedOut
  deriving DecidableEq, Repr

/-- `timeoutWriter` -/
structure TimeoutWriter where
  under : ResponseWriter
  buf : GoString := []
  code : Int := 200
  state : WriterState := .stBuffering
  header : Header

/-- The body of the 503. -/
def timeoutBody : GoString :=
  bytes "\x7b\"error\":\"timeout\",\"message\":\"request exceeded the configured timeout\"\x7d"

/-- `newTimeoutWriter` -/
def newTimeoutWriter (w : ResponseWriter) : TimeoutWriter where
  under := w
  header := w.header

namespace TimeoutWriter

/-- A change to the map of `Header`. -/
def changeHeader (w : TimeoutWriter) (f : Header → Header) : TimeoutWriter :=
  match w.state with
  | .stPassthrough => { w with under := w.under.call (.header f) }
  | _ => { w with header := f w.header }

/-- `WriteHeader` -/
def writeHeader (w : TimeoutWriter) (code : Int) : TimeoutWriter :=
  match w.state with
  | .stTimedOut => w
  | .stPassthrough => { w with under := w.under.writeHeader code }
  | .stBuffering => { w with code }

/-- `Write` -/
def write (w : TimeoutWriter) (b : GoString) : TimeoutWriter :=
  match w.state with
  | .stTimedOut => w
  | .stPassthrough => { w with under := w.under.write b }
  | .stBuffering => { w with buf := w.buf ++ b }

/-- `WriteString` -/
def writeString (w : TimeoutWriter) (s : GoString) : TimeoutWriter := w.write s

/-- `WriteHeaderNow` -/
def writeHeaderNow (w : TimeoutWriter) : TimeoutWriter :=
  if w.state = .stPassthrough then { w with under := w.under.writeHeaderNow } else w

/-- `Flush` -/
def flush (w : TimeoutWriter) : TimeoutWriter :=
  if w.state = .stPassthrough then { w with under := w.under.flush } else w

/-- `Status` -/
def status (w : TimeoutWriter) : Int := w.code

/-- `Written` -/
def written (w : TimeoutWriter) : Bool := w.state ≠ .stBuffering

/-- `commit` -/
def commit (w : TimeoutWriter) : TimeoutWriter :=
  if w.state ≠ .stBuffering then w
  else
    let under := { w.under with header := w.header }.writeHeader w.code
    { w with
      state := .stPassthrough
      under := if w.buf.length > 0 then under.write w.buf else under }

/-- `writeTimeout` -/
def writeTimeout (w : TimeoutWriter) : TimeoutWriter :=
  if w.state ≠ .stBuffering then w
  else
    let under := w.under.call (.header fun h => h.set contentType jsonContentType)
    { w with
      state := .stTimedOut
      code := 503
      under := ((under.writeHeader 503).write timeoutBody).flush }

/-- `enablePassthrough` -/
def enablePassthrough (w : TimeoutWriter) : TimeoutWriter :=
  if w.state ≠ .stBuffering then w
  else { w with buf := [], state := .stPassthrough }

/-- A call on the writer. -/
def call (w : TimeoutWriter) : Call → TimeoutWriter
  | .header f => w.changeHeader f
  | .writeHeader code => w.writeHeader code
  | .write b => w.write b
  | .writeString s => w.writeString s
  | .writeHeaderNow => w.writeHeaderNow
  | .flush => w.flush

/-- Several. -/
def calls (w : TimeoutWriter) (cs : List Call) : TimeoutWriter := cs.foldl call w

end TimeoutWriter

/-! ### A request -/

/-- Where the request goroutine is, whether it panicked, and whether it counts as expired. -/
inductive Main where
  | handling
  | ended (panicked : Bool)
  | checked (panicked expired : Bool)
  | decided (panicked expired : Bool)
  | closed (panicked expired : Bool)
  | waited (panicked expired : Bool)
  | answered (panicked expired : Bool)
  | cancelled (panicked expired : Bool)
  | returned (panicked expired : Bool)
  deriving DecidableEq, Repr

/-- Where the watcher is. -/
inductive Watcher where
  | selecting
  /-- It has taken the branch of `ctx.Done()`. -/
  | firing
  | exited
  deriving DecidableEq, Repr

/-- One request. -/
structure Race where
  tw : TimeoutWriter
  /-- `ctx.Err()` is not nil, and `ctx.Done()` is closed. -/
  ctxDone : Bool := false
  pastDeadline : Bool := false
  done : Bool := false
  watcher : Watcher := .selecting
  main : Main := .handling

/-- A step of it. -/
inductive Move where
  | call (c : Call)
  | ctxDone
  | deadline
  | select
  | retire
  | fire
  | finish (panicked : Bool)
  | checkErr
  | checkDeadline
  | closeDone
  | wait
  | answer
  | cancel
  | settle
  | outer (c : Call)

namespace Race

/-- The handler is about to run. -/
def start (w : ResponseWriter) : Race := { tw := newTimeoutWriter w }

/-- One step. -/
def step (r : Race) : Move → Option Race
  | .call c =>
    match r.main with
    | .handling => some { r with tw := r.tw.call c }
    | _ => none
  | .ctxDone => some { r with ctxDone := true }
  | .deadline => some { r with pastDeadline := true }
  | .select =>
    if r.watcher = .selecting ∧ r.ctxDone = true then
      some { r with watcher := .firing }
    else none
  | .retire =>
    if r.watcher = .selecting ∧ r.done = true then
      some { r with watcher := .exited }
    else none
  | .fire =>
    if r.watcher = .firing then
      some { r with tw := r.tw.writeTimeout, watcher := .exited }
    else none
  | .finish panicked =>
    match r.main with
    | .handling => some { r with main := .ended panicked }
    | _ => none
  | .checkErr =>
    match r.main with
    | .ended panicked => some { r with main := .checked panicked r.ctxDone }
    | _ => none
  | .checkDeadline =>
    match r.main with
    | .checked panicked expired =>
      some { r with main := .decided panicked (expired || r.pastDeadline) }
    | _ => none
  | .closeDone =>
    match r.main with
    | .decided panicked expired =>
      some { r with done := true, main := .closed panicked expired }
    | _ => none
  | .wait =>
    match r.main with
    | .closed panicked expired =>
      if r.watcher = .exited then some { r with main := .waited panicked expired }
      else none
    | _ => none
  | .answer =>
    match r.main with
    | .waited panicked expired =>
      some { r with
        tw := if expired then r.tw.writeTimeout else r.tw
        main := .answered panicked expired }
    | _ => none
  | .cancel =>
    match r.main with
    | .answered panicked expired =>
      some { r with ctxDone := true, main := .cancelled panicked expired }
    | _ => none
  | .settle =>
    match r.main with
    | .cancelled panicked expired =>
      some { r with
        tw := if panicked then r.tw.enablePassthrough else r.tw.commit
        main := .returned panicked expired }
    | _ => none
  | .outer c =>
    match r.main with
    | .returned _ _ => some { r with tw := r.tw.call c }
    | _ => none

end Race

/-! ### The outer layers

In the default stack `Error` and, inside it, gin's `Recovery` stand around the
middleware (`httpx/server.go`, `httpx/middleware/error.go`). -/

/-- The status `Error` answers with, by the category of the error. -/
def errorStatus (err : Err) : Int :=
  match err.getErrorType with
  | some .notFound => 404
  | some .badRequest => 400
  | some .business => 409
  | some .unauthorized => 401
  | some .forbidden => 403
  | _ => 500

/-- `Error` renders the last error recorded on the context, as `body`. -/
def errorLayer (errs : List Err) (body : GoString) : List Call :=
  match errs.getLast? with
  | none => []
  | some err => json (errorStatus err) body

/-- What `Recovery` writes. -/
def recoveryLayer (panicked : Bool) : List Call :=
  if panicked then abortWithStatus 500 else []

/-- The handler's call, if it is one. -/
def Move.handlerCall : Move → Option Call
  | .call c => some c
  | _ => none

/-- The outer layers' call, if it is one. -/
def Move.outerCall : Move → Option Call
  | .outer c => some c
  | _ => none

end Microjet.Middleware
