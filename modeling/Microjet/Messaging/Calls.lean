import Mathlib.Logic.Function.Basic
import Microjet.Outbox.Message

/-!
# Calls that share header maps (`messaging`, `messaging/nats`, `messaging/jetstream`, `outbox`)

The header maps of the caller are a store, by address, and a message has the address of its
map or none (`nil`). `InjectContext` writes into the map it is given: the wire message gets a
copy, and the caller's map stays as it left it. Without a tracer, starting a span leaves the
context as it is.
-/

namespace Microjet.Messaging

open Errorx Outbox

/-- The headers that the global propagator sets, in order. -/
structure Propagator where
  fields : Ctx → List (String × String)
  foreign : ∀ ctx, ∀ kv ∈ fields ctx, kv.1 ≠ correlationIDHeader

namespace Propagator

variable (P : Propagator)

/-- `Inject` -/
def inject (ctx : Ctx) (headers : Headers) : Headers :=
  (P.fields ctx).foldl (fun headers kv => setHeader headers kv.1 kv.2) headers

/-- `InjectContext` -/
def injectContext (ctx : Ctx) (headers : Headers) : Headers :=
  let headers := P.inject ctx headers
  let id := correlationIDFromContext ctx
  if id ≠ "" ∧ correlationID headers = "" then setCorrelationID headers id
  else headers

end Propagator

/-- The header maps by address. -/
abbrev Store := Nat → Headers

/-- What is in a map; `nil` is empty. -/
def Store.contents (store : Store) : Option Nat → Headers
  | none => []
  | some p => store p

/-- `InjectContext`: the map that it returns, and the caller's maps. -/
def Propagator.injectInto (P : Propagator) (ctx : Ctx) (store : Store) :
    Option Nat → Headers × Store
  | none => (P.injectContext ctx [], store)
  | some p =>
    let headers := P.injectContext ctx (store p)
    (headers, Function.update store p headers)

/-- Starting a span, if there is a tracer. -/
def startWith (draw : Option SpanDraw) (ctx : Ctx) : Ctx :=
  match draw with
  | some draw => startSpan draw ctx
  | none => ctx

/-- A message with the address of its map. -/
structure Outgoing where
  subject : String
  data : Bytes
  headers : Option Nat

/-- A failure of a request, and whether it is a timeout or that nobody responds. -/
structure RequestFailure where
  err : Err
  timeout : Bool

/-- The two clients. -/
inductive Client where
  | nats
  | jetstream

/-- What a client makes of an error. -/
def Client.wrap (subject : String) : Client → Err → Err
  | .nats, err => err
  | .jetstream, err =>
    (newInternalError "jetstream" "publish failed" [("subject", subject)]).withInner err

/-- A call, with how the connection or the database answers. The requests of the two clients
are the same. -/
inductive HeaderCall where
  | publish (client : Client) (send : WireMsg → Option Err) (draw : Option SpanDraw) (ctx : Ctx)
      (msg : Outgoing)
  | request (send : WireMsg → Option RequestFailure) (draw : Option SpanDraw) (ctx : Ctx)
      (req : Outgoing)
  | enqueue (wired : Bool) (create : Row → Option Err) (ctx : Ctx) (msg : Outgoing)

/-- What a call did. -/
structure Effect where
  sent : Option WireMsg := none
  stored : Option Row := none
  err : Option Err := none

section Perform

variable (P : Propagator) (json : HeaderJSON)

/-- The wire message, with a copy of the headers. -/
def Outgoing.wire (msg : Outgoing) (headers : Headers) : WireMsg :=
  ⟨msg.subject, msg.data, toNATSHeader headers⟩

/-- The row of a message is created. -/
def insertRow (create : Row → Option Err) (msg : Outgoing) (headers : Headers) : Effect :=
  let row : Row := { subject := msg.subject, payload := msg.data }
  let encoded : Except Err Row :=
    if headers.length > 0 then (json.toJSON headers).map fun h => { row with headers := h }
    else .ok row
  let failed (message : String) (err : Err) : Effect :=
    { err := some (((newInternalError "outbox" message).withParams
        [("subject", msg.subject)]).withInner err) }
  match encoded with
  | .error err => failed "encoding message headers failed" err
  | .ok row =>
    match create row with
    | some err => failed "enqueuing message failed" err
    | none => { stored := some row }

/-- What a call does, and to the maps. -/
def perform (store : Store) : HeaderCall → Effect × Store
  | .publish client send draw ctx msg =>
    match ctx.err with
    | some err => ({ err := some err }, store)
    | none =>
      let r := P.injectInto (startWith draw ctx) store msg.headers
      let m := msg.wire r.1
      ({ sent := some m, err := (send m).map (client.wrap msg.subject) }, r.2)
  | .request send draw ctx req =>
    let r := P.injectInto (startWith draw ctx) store req.headers
    let m := req.wire r.1
    let err := (send m).map fun f =>
      if f.timeout then .other ("messaging: request timed out: " ++ f.err.error) else f.err
    ({ sent := some m, err }, r.2)
  | .enqueue wired create ctx msg =>
    if !wired then
      ({ err := some (newInternalError "outbox"
          ("enqueuer is not initialized; build it with NewEnqueuer or resolve outbox.Of " ++
            "after the app is set up")) },
        store)
    else
      let r := P.injectInto ctx store msg.headers
      (insertRow json create msg r.1, r.2)

end Perform

/-! ### The trace context

With the W3C propagator and a tracer, what is injected and sent is what `injectContext` and
`publishThrough` say, on the contents of the map. -/

end Microjet.Messaging
