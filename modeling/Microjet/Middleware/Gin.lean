import Microjet.Core.Go
import Mathlib.Logic.Function.Basic

/-!
# The response writer of gin

What the middlewares write into: gin's writer and, under it, that of `net/http`. gin remembers
a status and passes it on at the first `Write`, `WriteHeaderNow` or `Flush`, or when the chain
has returned. `net/http` then sends it with the headers of that moment, unless the code is
informational: that goes out as a response of its own, and the final one is a 200. It panics
on a code of fewer or more than three digits.
-/

namespace Microjet.Gin

/-- An `http.Header`. -/
abbrev Header := GoString → List GoString

namespace Header

/-- `Set`: the one value of the name. -/
def set (h : Header) (key value : GoString) : Header := Function.update h key [value]

/-- `Get`: the first value, or an empty text. -/
def get (h : Header) (key : GoString) : GoString := (h key).headD []

end Header

/-- The name of the header, in its canonical form. -/
def contentType : GoString := bytes "Content-Type"

/-- What gin's JSON rendering sets it to. -/
def jsonContentType : GoString := bytes "application/json; charset=utf-8"

/-- A call as the writer records it. -/
inductive Receipt where
  | writeHeader (code : Int)
  | write (b : GoString)
  | writeHeaderNow
  | flush
  deriving DecidableEq, Repr

/-- A call on a `gin.ResponseWriter`. A change of the headers is any change of the
map `Header` returns. -/
inductive Call where
  | header (f : Header → Header)
  | writeHeader (code : Int)
  | write (b : GoString)
  | writeString (s : GoString)
  | writeHeaderNow
  | flush

/-- The final response, as the client has it. -/
structure Response where
  status : Int
  header : Header
  body : GoString

/-- Whether the call makes gin pass its status on. -/
def Call.sends : Call → Bool
  | .header _ => false
  | .writeHeader _ => false
  | _ => true

/-- gin and `net/http` have the same function. -/
def bodyAllowedForStatus (status : Int) : Bool :=
  !((100 ≤ status && status ≤ 199) || status = 204 || status = 304)

/-- `checkWriteHeaderCode` does not panic. -/
def validCode (code : Int) : Bool := 100 ≤ code && code ≤ 999

/-- `net/http` sends the code and goes on waiting for a final one. After a 101 no more
headers follow. -/
def informational (code : Int) : Bool := 100 ≤ code && code ≤ 199 && code ≠ 101

/-- The code is that of the response. -/
def isFinal (code : Int) : Bool := validCode code && !informational code

/-- The status when the chain returns with this code and nothing sent. After a panic there,
outside `Recovery`, the connection is closed. -/
def finalStatus (code : Int) : Option Int :=
  if validCode code then some (if informational code then 200 else code) else none

/-! ### The writer -/

/-- How far the response is. In `interim` gin has passed its status on, and `net/http`
has no final one. -/
inductive Sent where
  | nothing
  | interim
  | final (status : Int) (header : Header)

/-- `received` has the calls, each with the header map as it was; nothing depends on it. -/
structure ResponseWriter where
  header : Header := fun _ => []
  status : Int := 200
  sent : Sent := .nothing
  body : GoString := []
  received : List (Header × Receipt) := []

namespace ResponseWriter

/-- The call is recorded. -/
def receive (w : ResponseWriter) (r : Receipt) : ResponseWriter :=
  { w with received := w.received ++ [(w.header, r)] }

/-- `Written` -/
def written (w : ResponseWriter) : Bool :=
  match w.sent with
  | .nothing => false
  | _ => true

/-- `net/http` panics if gin passes its status on now. -/
def refused (w : ResponseWriter) : Bool := !w.written && !validCode w.status

/-- gin passes its status on, once. If `net/http` panics, gin has noted it as passed. -/
def send (w : ResponseWriter) : ResponseWriter :=
  if w.written then w
  else { w with sent := if isFinal w.status then .final w.status w.header else .interim }

/-- The `WriteHeader(200)` of `net/http` before the first byte, if there was none. -/
def begin (w : ResponseWriter) : ResponseWriter :=
  match w.sent with
  | .interim => { w with sent := .final 200 w.header }
  | _ => w

/-- What has been sent admits a body. -/
def admits (w : ResponseWriter) : Bool :=
  match w.sent with
  | .final status _ => bodyAllowedForStatus status
  | _ => false

/-- `WriteHeader` -/
def writeHeader (w : ResponseWriter) (code : Int) : ResponseWriter :=
  let w := w.receive (.writeHeader code)
  if 0 < code ∧ w.written = false then { w with status := code } else w

/-- `Write`: after a panic of `net/http` nothing of it is written. -/
def write (w : ResponseWriter) (b : GoString) : ResponseWriter :=
  let w := w.receive (.write b)
  if w.refused then w.send
  else
    let w := w.send.begin
    if w.admits then { w with body := w.body ++ b } else w

/-- `WriteHeaderNow` -/
def writeHeaderNow (w : ResponseWriter) : ResponseWriter :=
  (w.receive .writeHeaderNow).send

/-- `Flush` -/
def flush (w : ResponseWriter) : ResponseWriter :=
  let w := w.receive .flush
  if w.refused then w.send else w.send.begin

/-- One call, whichever. -/
def call (w : ResponseWriter) : Call → ResponseWriter
  | .header f => { w with header := f w.header }
  | .writeHeader code => w.writeHeader code
  | .write b => w.write b
  | .writeString s => w.write s
  | .writeHeaderNow => w.writeHeaderNow
  | .flush => w.flush

/-- A list of calls, one after another. -/
def calls (w : ResponseWriter) (cs : List Call) : ResponseWriter := cs.foldl call w

/-- The call does not return. -/
def panics (w : ResponseWriter) (c : Call) : Bool := c.sends && w.refused

/-- A function that makes these calls returns from all of them. -/
def returns (w : ResponseWriter) : List Call → Bool
  | [] => true
  | c :: cs => !w.panics c && (w.call c).returns cs

/-- Those of the calls that a function gets to make: one that panics is its last. -/
def made (w : ResponseWriter) : List Call → List Call
  | [] => []
  | c :: cs => if w.panics c then [c] else c :: (w.call c).made cs

/-- What the client has got when the chain has returned, gin has passed on what it had
not and `net/http` has finished the request. -/
def response (w : ResponseWriter) : Option Response :=
  match w.sent with
  | .final status header => some ⟨status, header, w.body⟩
  | .interim => some ⟨200, w.header, w.body⟩
  | .nothing => (finalStatus w.status).map fun status => ⟨status, w.header, w.body⟩

end ResponseWriter

/-- `writeContentType`: a content type that is there already stays. -/
def writeContentType (value : GoString) : Call :=
  .header fun h => if h contentType = [] then h.set contentType value else h

/-- `Context.Render` -/
def render (code : Int) (value body : GoString) : List Call :=
  if bodyAllowedForStatus code then
    [.writeHeader code, writeContentType value, .write body]
  else [.writeHeader code, writeContentType value, .writeHeaderNow]

/-- `Context.Data` -/
def data (code : Int) (value body : GoString) : List Call := render code value body

/-- `Context.JSON`, of a value already encoded. -/
def json (code : Int) (body : GoString) : List Call := render code jsonContentType body

/-- `Context.AbortWithStatus` -/
def abortWithStatus (code : Int) : List Call := [.writeHeader code, .writeHeaderNow]

end Microjet.Gin
