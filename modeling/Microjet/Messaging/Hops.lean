import Mathlib.Data.List.DropRight
import Microjet.Messaging.Propagation

/-!
# From one process to the next

What one process injects, the next one reads back: `ExtractContext` in a message handler
(`messaging/propagation.go`), `RequestID` and `Tracing` in the HTTP server, `withRequestID` in
the gRPC server. What the installed propagator makes of the headers is an argument, `extract`.
HTTP headers have the canonical name (`X-Request-Id`), those of NATS the one that is written
(`X-Request-ID`).
-/

namespace Microjet.Messaging

variable (extract : Headers → Option SpanContext)

/-- `Extract` of the propagator: without a valid span context `ctx` stays. -/
def extractTrace (ctx : Ctx) (headers : Headers) : Ctx :=
  match extract headers with
  | none => ctx
  | some sc => { ctx with span := some sc }

/-- `ExtractContext` -/
def extractContext (ctx : Ctx) (headers : Headers) : Ctx :=
  if headers.length = 0 then ctx
  else
    let ctx := extractTrace extract ctx headers
    let id := correlationID headers
    if id ≠ "" then contextWithCorrelationID ctx id else ctx

/-! ## On the wire -/

/-- A blank or a line break. -/
def isBlank (c : Char) : Bool := c == ' ' || c == '\t' || c == '\n' || c == '\r'

/-- What arrives of a header value. -/
def lineValue (v : String) : String :=
  let line := v.toList.map fun c => if c == '\n' || c == '\r' then ' ' else c
  String.ofList ((line.dropWhile isBlank).rdropWhile isBlank)

/-- Headers after the line. -/
def lineHeaders (h : Headers) : Headers := h.map fun kv => (kv.1, kv.2.map lineValue)

/-- `fromNATSHeader` -/
def fromNATSHeader (h : Headers) : Headers := h.map fun kv => (kv.1, kv.2)

/-! ## Three kinds of hops -/

/-- The context of a handler for a message sent under `ctx`; `base` is the subscription's. -/
def messageHop (producer consumer : SpanDraw) (base : Ctx) (msg : Message) (ctx : Ctx) : Ctx :=
  let header := fromNATSHeader (lineHeaders (wireMsg producer ctx msg).header)
  startSpan consumer (extractContext extract base header)

/-- `X-Request-ID` as `http.Header` stores it. -/
def requestIDHeader : String := "X-Request-Id"

/-- The headers of a request in `Client.doOnce`; `sets` are the client's and the options', in
turn. -/
def requestHeaders (draw : SpanDraw) (hasBody : Bool) (sets : List (String × String))
    (ctx : Ctx) : Headers :=
  let ctx := startSpan draw ctx
  let header := setHeader (inject ctx []) "Accept" "application/json"
  let header := if hasBody then setHeader header "Content-Type" "application/json" else header
  let id := correlationIDFromContext ctx
  let header := if id ≠ "" then setHeader header requestIDHeader id else header
  sets.foldl (fun header kv => setHeader header kv.1 kv.2) header

/-- `RequestID` and then `Tracing`, as the server installs them. -/
def serverContext (draw : SpanDraw) (uuid : String) (base : Ctx) (header : Headers) : Ctx :=
  let id := headerValue header requestIDHeader
  let ctx := contextWithCorrelationID base (if id = "" then uuid else id)
  startSpan draw (extractTrace extract ctx header)

/-- The key in gRPC metadata, where names are in lower case. -/
def requestIDKey : String := "x-request-id"

/-- `propagateRequestID`: the id goes after the values the metadata has. -/
def propagateRequestID (md : Headers) (ctx : Ctx) : Headers :=
  let id := correlationIDFromContext ctx
  if id = "" then md
  else (requestIDKey, (md.lookup requestIDKey).getD [] ++ [id]) ::
    md.filter fun kv => kv.1 != requestIDKey

/-- `withRequestID` -/
def withRequestID (uuid : String) (base : Ctx) (md : Headers) : Ctx :=
  let id := headerValue md requestIDKey
  contextWithCorrelationID base (if id = "" then uuid else id)

/-- One hop to a handler in another process; in `grpc` the trace is the instrumentation's. -/
inductive Hop where
  | message (producer consumer : SpanDraw) (base : Ctx) (msg : Message)
  | http (client server : SpanDraw) (hasBody : Bool) (sets : List (String × String))
      (uuid : String) (base : Ctx)
  | grpc (md : Headers) (uuid : String) (base : Ctx)

/-- What a context is after the hop. -/
def Hop.pass (ctx : Ctx) : Hop → Ctx
  | .message producer consumer base msg =>
    messageHop extract producer consumer base msg ctx
  | .http client server hasBody sets uuid base =>
    serverContext extract server uuid base
      (lineHeaders (requestHeaders client hasBody sets ctx))
  | .grpc md uuid base => withRequestID uuid base (propagateRequestID md ctx)

end Microjet.Messaging
