import Microjet.Lib.Hex
import Microjet.Messaging.Headers

/-!
# Contexts, spans and the two NATS clients

`messaging/propagation.go` puts the trace context and the correlation id of a context into a
message's headers, and the two broker clients (`messaging/nats/nats.go`,
`messaging/jetstream/jetstream.go`) do so once more when they publish. Of OpenTelemetry there
is what its documentation says; the ids a tracer draws are an argument.
-/

namespace Microjet.Messaging

open Errorx

/-- `trace.TraceID` -/
abbrev TraceID := Vector UInt8 16

/-- `trace.SpanID` -/
abbrev SpanID := Vector UInt8 8

/-- `IsValid`: not all zeros. -/
def validID {n : Nat} (id : Vector UInt8 n) : Bool := id.toList.any (· != 0)

/-- `trace.SpanContext` -/
structure SpanContext where
  traceID : TraceID
  spanID : SpanID
  flags : UInt8 := 0
  traceState : String := ""
  deriving DecidableEq

/-- `IsValid` -/
def SpanContext.isValid (sc : SpanContext) : Bool :=
  validID sc.traceID && validID sc.spanID

/-- What the messaging code reads of a `context.Context`: the span, the id, and `Err()`. -/
structure Ctx where
  span : Option SpanContext := none
  correlation : Option String := none
  err : Option Err := none
  deriving DecidableEq

/-- `context.Background` -/
def background : Ctx := {}

/-- `CorrelationIDFromContext` -/
def correlationIDFromContext (ctx : Ctx) : String := ctx.correlation.getD ""

/-- `ContextWithCorrelationID` -/
def contextWithCorrelationID (ctx : Ctx) (id : String) : Ctx :=
  { ctx with correlation := some id }

/-- What the tracer draws for one span; the ids it draws are valid. -/
structure SpanDraw where
  traceID : TraceID
  spanID : SpanID
  flags : UInt8 := 0
  traceID_valid : validID traceID = true
  spanID_valid : validID spanID = true
  deriving DecidableEq

/-- A child when the parent has a valid trace id, else the root of a new trace. -/
def newSpan (draw : SpanDraw) (parent : Option SpanContext) : SpanContext :=
  match parent with
  | some sc =>
    if validID sc.traceID then
      ⟨sc.traceID, draw.spanID, draw.flags, sc.traceState⟩
    else ⟨draw.traceID, draw.spanID, draw.flags, ""⟩
  | none => ⟨draw.traceID, draw.spanID, draw.flags, ""⟩

/-- A span is started. -/
def startSpan (draw : SpanDraw) (ctx : Ctx) : Ctx :=
  { ctx with span := some (newSpan draw ctx.span) }

/-- `hex.EncodeToString` -/
def hexEncode (bytes : List UInt8) : List Char := Hex.encode Nat.digitChar bytes

/-- The `traceparent` value of a span context: version, trace id, span id and
the sampled flag. -/
def traceparent (sc : SpanContext) : String :=
  String.ofList (['0', '0', '-'] ++ (hexEncode sc.traceID.toList ++
    ('-' :: hexEncode sc.spanID.toList ++ '-' :: hexEncode [sc.flags &&& 1])))

/-- The canonical spelling `http.Header.Set` gives the propagator's keys. -/
def traceparentHeader : String := "Traceparent"

/-- The canonical key of `tracestate`. -/
def tracestateHeader : String := "Tracestate"

/-- The W3C propagator; an invalid span context writes nothing. -/
def inject (ctx : Ctx) (headers : Headers) : Headers :=
  match ctx.span with
  | none => headers
  | some sc =>
    if sc.isValid then
      let headers :=
        if sc.traceState != "" then
          setHeader headers tracestateHeader sc.traceState
        else headers
      setHeader headers traceparentHeader (traceparent sc)
    else headers

/-- `InjectContext`: the trace context, then the correlation id unless the
headers already carry one. -/
def injectContext (ctx : Ctx) (headers : Headers) : Headers :=
  let headers := inject ctx headers
  let id := correlationIDFromContext ctx
  if id ≠ "" ∧ correlationID headers = "" then setCorrelationID headers id
  else headers

section Lemmas

variable {ctx : Ctx} {sc : SpanContext} {headers : Headers} {key : String}

theorem headerValue_inject_traceparent (hspan : ctx.span = some sc)
    (hvalid : sc.isValid = true) :
    headerValue (inject ctx headers) traceparentHeader = traceparent sc := by
  rw [inject, hspan]
  simp only [hvalid, if_true, headerValue_setHeader_self]

theorem headerValue_inject_ne (hparent : key ≠ traceparentHeader)
    (hstate : key ≠ tracestateHeader) :
    headerValue (inject ctx headers) key = headerValue headers key := by
  unfold inject
  split
  · rfl
  · split
    · rw [headerValue_setHeader_ne _ _ hparent]
      split
      · exact headerValue_setHeader_ne _ _ hstate
      · rfl
    · rfl

theorem headerValue_injectContext_traceparent (hspan : ctx.span = some sc)
    (hvalid : sc.isValid = true) :
    headerValue (injectContext ctx headers) traceparentHeader = traceparent sc := by
  rw [injectContext]
  split
  · rw [setCorrelationID, headerValue_setHeader_ne _ _ (by decide)]
    exact headerValue_inject_traceparent hspan hvalid
  · exact headerValue_inject_traceparent hspan hvalid

theorem correlationID_injectContext :
    correlationID (injectContext ctx headers) =
      if correlationID headers = "" then correlationIDFromContext ctx
      else correlationID headers := by
  have hinject : correlationID (inject ctx headers) = correlationID headers :=
    headerValue_inject_ne (by decide) (by decide)
  rw [injectContext, hinject]
  by_cases hid : correlationIDFromContext ctx = ""
  · rw [if_neg fun h => h.1 hid, hinject, hid]
    split
    · next h => exact h
    · rfl
  · by_cases hold : correlationID headers = ""
    · rw [if_pos ⟨hid, hold⟩, if_pos hold, setCorrelationID, correlationID,
        headerValue_setHeader_self]
    · rw [if_neg fun h => hold h.2, if_neg hold, hinject]

end Lemmas

/-! ## Publishing

Both clients refuse a context that is done, start a producer span, inject the
span's context into the message's own header map, and hand the result to the
connection. They differ in how they report the connection's error. -/

/-- `nats.Msg` -/
structure WireMsg where
  subject : String
  data : Bytes
  header : Headers
  deriving DecidableEq

/-- `toNATSHeader` copies the map; the `nil` it returns for an empty one is the
empty list. -/
def toNATSHeader (h : Headers) : Headers := h.map fun kv => (kv.1, kv.2)

@[simp] theorem toNATSHeader_eq (h : Headers) : toNATSHeader h = h := List.map_id h

/-- The message a client sends. -/
def wireMsg (draw : SpanDraw) (ctx : Ctx) (msg : Message) : WireMsg :=
  let ctx := startSpan draw ctx
  { subject := msg.subject, data := msg.data,
    header := toNATSHeader (injectContext ctx msg.headers) }

/-- `Client.Publish`: what went on the wire, and the error. `send` is the connection. -/
def publishThrough (wrap : Message → Err → Err) (send : WireMsg → Option Err)
    (draw : SpanDraw) (ctx : Ctx) (msg : Message) : Option WireMsg × Option Err :=
  match ctx.err with
  | some err => (none, some err)
  | none =>
    let m := wireMsg draw ctx msg
    (some m, (send m).map (wrap msg))

/-- `Publish` of the NATS client. -/
def natsPublish (send : WireMsg → Option Err) :=
  publishThrough (fun _ err => err) send

/-- `Publish` of the JetStream client. -/
def jetstreamPublish (send : WireMsg → Option Err) :=
  publishThrough (fun msg err =>
    (newInternalError "jetstream" "publish failed"
      [("subject", msg.subject)]).withInner err) send

end Microjet.Messaging
