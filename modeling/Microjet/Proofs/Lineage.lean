import Microjet.Outbox.Relay

/-!
# The lineage of a relayed event

`Enqueue` injects the caller's context into the headers it stores; the broker client injects the
relay's own when it publishes, under a new span. The correlation id survives, because injecting
leaves that header alone; `Traceparent` is overwritten (`lineage_lost`).
-/

namespace Microjet.Outbox

open Errorx Messaging

/-- The codec returns the same values under every key, and the text of a map is never empty. -/
def HeaderJSON.RoundTrips (json : HeaderJSON) (headers : Headers) : Prop :=
  ∀ b, json.toJSON headers = .ok b → 0 < b.length ∧
    ∃ loaded, json.fromJSON b = .ok loaded ∧
      ∀ key, loaded.lookup key = headers.lookup key

/-- The trace id in the headers. -/
def traceField (headers : Headers) : List Char :=
  ((headerValue headers traceparentHeader).toList.drop 3).take 32

/-- The wire message carries the trace id and the correlation id of `ctx`. -/
def KeepsLineage (ctx : Ctx) (wire : WireMsg) : Prop :=
  (ctx.span.map fun sc => hexEncode sc.traceID.toList) =
      some (traceField wire.header) ∧
    correlationID wire.header = correlationIDFromContext ctx

instance (ctx : Ctx) (wire : WireMsg) : Decidable (KeepsLineage ctx wire) :=
  inferInstanceAs (Decidable (_ ∧ _))

/-! ## Hexadecimal -/

theorem digitChar_inj {a b : Nat} (ha : a < 16) (hb : b < 16)
    (h : Nat.digitChar a = Nat.digitChar b) : a = b := by
  have hall : ∀ a b : Fin 16, Nat.digitChar a = Nat.digitChar b → a = b := by decide
  exact congrArg Fin.val (hall ⟨a, ha⟩ ⟨b, hb⟩ h)

theorem hexEncode_inj {bytes bytes' : List UInt8}
    (h : hexEncode bytes = hexEncode bytes') : bytes = bytes' :=
  Hex.encode_inj (fun _ _ => digitChar_inj) h

theorem traceField_eq {headers : Headers} {sc : SpanContext}
    (h : headerValue headers traceparentHeader = traceparent sc) :
    traceField headers = hexEncode sc.traceID.toList := by
  rw [traceField, h, traceparent, String.toList_ofList]
  change (hexEncode sc.traceID.toList ++ _).take 32 = _
  exact List.take_left' (by rw [hexEncode, Hex.length_encode]; simp)

/-! ## Through the table -/

section Relayed

variable {json : HeaderJSON} {ctx : Ctx} {msg : Message} {row : Row}

theorem message_of_enqueue (hjson : json.RoundTrips (injectContext ctx msg.headers))
    (h : enqueue json true ctx msg = .ok row) :
    ∃ out, row.message json = .ok out ∧ ∀ key,
      headerValue out.headers key = headerValue (injectContext ctx msg.headers) key := by
  unfold enqueue at h
  rw [if_neg (by simp)] at h
  dsimp only at h
  split at h
  · split at h
    · cases h
    · next b hb =>
        cases h
        obtain ⟨hlen, loaded, hload, hlookup⟩ := hjson b hb
        refine ⟨⟨msg.subject, msg.data, loaded⟩, ?_, fun key => ?_⟩
        · simp only [Row.message, gt_iff_lt, hlen, if_true, hload]
        · rw [headerValue, headerValue, hlookup]
  · next hlen =>
      cases h
      rw [gt_iff_lt, Nat.not_lt, Nat.le_zero, List.length_eq_zero_iff] at hlen
      exact ⟨⟨msg.subject, msg.data, []⟩, rfl, fun key => by rw [hlen]⟩

theorem wireMsg_background (draw : SpanDraw) (out : Message) :
    traceField (wireMsg draw background out).header = hexEncode draw.traceID.toList ∧
      correlationID (wireMsg draw background out).header = correlationID out.headers := by
  rw [wireMsg]
  simp only [toNATSHeader_eq]
  have hspan : (startSpan draw background).span =
      some ⟨draw.traceID, draw.spanID, draw.flags, ""⟩ := rfl
  refine ⟨traceField_eq (headerValue_injectContext_traceparent hspan ?_), ?_⟩
  · rw [SpanContext.isValid, draw.traceID_valid, draw.spanID_valid]
    rfl
  · rw [correlationID_injectContext]
    split
    · next hnone => exact hnone.symm
    · rfl

/-- Whatever context an event was enqueued under, both clients put it on the wire with the right
correlation id and with the trace id of the span they started, which is another one. -/
theorem lineage_lost {sc : SpanContext} (hspan : ctx.span = some sc)
    (hvalid : sc.isValid = true) (hnone : correlationID msg.headers = "")
    (hjson : json.RoundTrips (injectContext ctx msg.headers))
    (henq : enqueue json true ctx msg = .ok row) :
    ∃ out, row.message json = .ok out ∧
      headerValue out.headers traceparentHeader = traceparent sc ∧
      ∀ send draw, draw.traceID ≠ sc.traceID → ∃ wire,
        (natsPublish send draw background out).1 = some wire ∧
        (jetstreamPublish send draw background out).1 = some wire ∧
        correlationID wire.header = correlationIDFromContext ctx ∧
        traceField wire.header = hexEncode draw.traceID.toList ∧
        ¬ KeepsLineage ctx wire := by
  obtain ⟨out, hout, hheaders⟩ := message_of_enqueue hjson henq
  refine ⟨out, hout, ?_, fun send draw hfresh => ?_⟩
  · rw [hheaders]
    exact headerValue_injectContext_traceparent hspan hvalid
  · obtain ⟨htrace, hid⟩ := wireMsg_background draw out
    refine ⟨wireMsg draw background out, rfl, rfl, ?_, htrace, fun hkeeps => hfresh ?_⟩
    · rw [hid, correlationID, hheaders]
      change correlationID _ = _
      rw [correlationID_injectContext, if_pos hnone]
    · have hsame := hkeeps.1
      rw [hspan, htrace] at hsame
      exact (Vector.toList_inj.mp (hexEncode_inj (Option.some.inj hsame))).symm

end Relayed

/-! ### One event -/

def requestCtx : Ctx where
  span := some ⟨.replicate 16 0x4b, .replicate 8 0x01, 1, ""⟩
  correlation := some "req-1"

def storedHeaders : Headers :=
  [("X-Request-ID", ["req-1"]),
    ("Traceparent", ["00-4b4b4b4b4b4b4b4b4b4b4b4b4b4b4b4b-0101010101010101-01"])]

def storedText : Bytes :=
  "\x7b\"Traceparent\":[\"00-4b4b4b4b4b4b4b4b4b4b4b4b4b4b4b4b-0101010101010101-01\"],\"X-Request-ID\":[\"req-1\"]\x7d".toList.map
    fun c => c.toNat.toUInt8

def storedJSON : HeaderJSON where
  toJSON h := if h = storedHeaders then .ok storedText else .error (.other "unsupported")
  fromJSON b := if b = storedText then .ok storedHeaders else .error (.other "unsupported")

def publishSpan : SpanDraw where
  traceID := .replicate 16 0xaa
  spanID := .replicate 8 0x02
  traceID_valid := by decide
  spanID_valid := by decide

def orderCreated : Message := { subject := "orders.created", data := [7] }

def orderRow : Row :=
  { subject := "orders.created", payload := [7], headers := storedText }

theorem storedJSON_roundTrips :
    storedJSON.RoundTrips (injectContext requestCtx orderCreated.headers) := by
  have hstored : injectContext requestCtx orderCreated.headers = storedHeaders := by decide
  intro b hb
  rw [hstored, storedJSON] at hb
  simp only [if_true] at hb
  cases hb
  exact ⟨by decide +kernel, storedHeaders, by simp [storedJSON], fun key => by rw [hstored]⟩

theorem orderCreated_lineage_lost :
    enqueue storedJSON true requestCtx orderCreated = .ok orderRow ∧
      ∃ out, orderRow.message storedJSON = .ok out ∧
        headerValue out.headers traceparentHeader =
          "00-4b4b4b4b4b4b4b4b4b4b4b4b4b4b4b4b-0101010101010101-01" ∧
        ∃ wire, (natsPublish (fun _ => none) publishSpan background out).1 = some wire ∧
          headerValue wire.header traceparentHeader =
            "00-aaaaaaaaaaaaaaaaaaaaaaaaaaaaaaaa-0202020202020202-00" ∧
          ¬ KeepsLineage requestCtx wire := by
  exact ⟨by decide +kernel, { orderCreated with headers := storedHeaders },
    by decide +kernel, by decide, _, rfl, by decide, by decide⟩

theorem lineage_lost_orderCreated :
    ∃ out, orderRow.message storedJSON = .ok out ∧
      headerValue out.headers traceparentHeader =
        traceparent ⟨.replicate 16 0x4b, .replicate 8 0x01, 1, ""⟩ ∧
      ∀ send draw, draw.traceID ≠ Vector.replicate 16 0x4b → ∃ wire,
        (natsPublish send draw background out).1 = some wire ∧
        (jetstreamPublish send draw background out).1 = some wire ∧
        correlationID wire.header = correlationIDFromContext requestCtx ∧
        traceField wire.header = hexEncode draw.traceID.toList ∧
        ¬ KeepsLineage requestCtx wire :=
  lineage_lost rfl (by decide) (by decide) storedJSON_roundTrips
    (by decide +kernel)

end Microjet.Outbox
