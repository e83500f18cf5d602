import Microjet.Messaging.Hops

/-!
# One correlation id through many processes

Every chain of hops leaves the id that `Hop.carry` makes of the first one (`correlation_run`).
A message that has a correlation header keeps it, a header set on the HTTP client replaces the
one written before it, and in gRPC metadata the first id counts.
-/

namespace Microjet.Messaging

variable {extract : Headers → Option SpanContext} {ctx : Ctx} {headers : Headers}

theorem headerValue_eq (headers : Headers) (key : String) :
    headerValue headers key = ((headers.lookup key).getD []).headD "" := by
  rw [headerValue]
  rcases headers.lookup key with - | - | ⟨v, vs⟩ <;> rfl

theorem headerValue_lineHeaders (key : String) :
    headerValue (lineHeaders headers) key = lineValue (headerValue headers key) := by
  have hlookup : (lineHeaders headers).lookup key =
      (headers.lookup key).map (·.map lineValue) := by
    induction headers with
    | nil => rfl
    | cons kv rest ih =>
      rw [lineHeaders, List.map_cons, List.lookup_cons, List.lookup_cons]
      split
      · rfl
      · exact ih
  rw [headerValue_eq, headerValue_eq, hlookup]
  rcases headers.lookup key with - | - | ⟨v, vs⟩ <;> rfl

theorem correlation_extractTrace :
    (extractTrace extract ctx headers).correlation = ctx.correlation := by
  unfold extractTrace
  split <;> rfl

theorem correlation_extractContext :
    correlationIDFromContext (extractContext extract ctx headers) =
      if correlationID headers = "" then correlationIDFromContext ctx
      else correlationID headers := by
  rw [extractContext]
  by_cases hid : correlationID headers = ""
  · rw [if_pos hid]
    split
    · rfl
    · rw [if_neg (not_not.mpr hid)]
      exact congrArg (Option.getD · "") correlation_extractTrace
  · have hlen : headers.length ≠ 0 := fun hlen =>
      hid (by rw [List.length_eq_zero_iff.mp hlen]; rfl)
    rw [if_neg hlen, if_neg hid]
    exact congrArg correlationIDFromContext (if_pos hid)

/-- The value that the last of the assignments to `key` leaves. -/
def lastSet (sets : List (String × String)) (key : String) : Option String :=
  sets.foldl (fun v kv => if kv.1 = key then some kv.2 else v) none

theorem headerValue_sets (sets : List (String × String)) (key : String) :
    headerValue (sets.foldl (fun header kv => setHeader header kv.1 kv.2) headers) key =
      (lastSet sets key).getD (headerValue headers key) := by
  rw [lastSet]
  induction sets using List.reverseRecOn with
  | nil => rfl
  | append_singleton sets kv ih =>
    rw [List.foldl_append, List.foldl_append, List.foldl_cons, List.foldl_nil, List.foldl_cons,
      List.foldl_nil]
    split
    · next h => rw [h, headerValue_setHeader_self, Option.getD_some]
    · next h => rw [headerValue_setHeader_ne _ _ (Ne.symm h), ih]

theorem requestID_requestHeaders (draw : SpanDraw) (hasBody : Bool)
    (sets : List (String × String)) :
    headerValue (requestHeaders draw hasBody sets ctx) requestIDHeader =
      (lastSet sets requestIDHeader).getD (correlationIDFromContext ctx) := by
  have hctx : correlationIDFromContext (startSpan draw ctx) = correlationIDFromContext ctx := rfl
  have hinject : headerValue (inject (startSpan draw ctx) []) requestIDHeader = "" :=
    headerValue_inject_ne (by decide) (by decide)
  rw [requestHeaders, headerValue_sets]
  congr 1
  simp only [hctx]
  split
  · rw [headerValue_setHeader_self]
  · next hid =>
      rw [not_not.mp hid, ← hinject]
      split
      · rw [headerValue_setHeader_ne _ _ (by decide), headerValue_setHeader_ne _ _ (by decide)]
      · rw [headerValue_setHeader_ne _ _ (by decide)]

theorem requestID_propagate (md : Headers) :
    headerValue (propagateRequestID md ctx) requestIDKey =
      ((md.lookup requestIDKey).getD [] ++ [correlationIDFromContext ctx]).headD "" := by
  rw [headerValue_eq, propagateRequestID]
  split
  · next hid =>
      rw [hid]
      cases (md.lookup requestIDKey).getD [] <;> rfl
  · rw [List.lookup_cons_self, Option.getD_some]

/-! ## What a hop makes of the id -/

/-- What a hop makes of the id, without contexts, spans and headers. -/
def Hop.carry (id : String) : Hop → String
  | .message _ _ base msg =>
    let own := correlationID msg.headers
    let got := lineValue (if own = "" then id else own)
    if got = "" then correlationIDFromContext base else got
  | .http _ _ _ sets uuid _ =>
    let got := lineValue ((lastSet sets requestIDHeader).getD id)
    if got = "" then uuid else got
  | .grpc md uuid _ =>
    let got := ((md.lookup requestIDKey).getD [] ++ [id]).headD ""
    if got = "" then uuid else got

theorem correlation_pass (hop : Hop) :
    correlationIDFromContext (hop.pass extract ctx) =
      hop.carry (correlationIDFromContext ctx) := by
  cases hop with
  | message producer consumer base msg =>
    have hsent : correlationID (lineHeaders (wireMsg producer ctx msg).header) =
        lineValue (if correlationID msg.headers = "" then correlationIDFromContext ctx
          else correlationID msg.headers) := by
      rw [correlationID, headerValue_lineHeaders, wireMsg, toNATSHeader_eq]
      exact congrArg lineValue correlationID_injectContext
    rw [Hop.pass, messageHop, fromNATSHeader, List.map_id', Hop.carry, ← hsent]
    exact correlation_extractContext
  | http client server hasBody sets uuid base =>
    rw [Hop.pass, serverContext, headerValue_lineHeaders, requestID_requestHeaders, Hop.carry,
      correlationIDFromContext, startSpan, correlation_extractTrace, contextWithCorrelationID,
      Option.getD_some]
  | grpc md uuid base =>
    rw [Hop.pass, withRequestID, requestID_propagate]
    rfl

/-- The contexts of a chain of hops carry the id that the hops make of the first. -/
theorem correlation_run (hops : List Hop) :
    correlationIDFromContext (hops.foldl (Hop.pass extract) ctx) =
      hops.foldl Hop.carry (correlationIDFromContext ctx) := by
  induction hops generalizing ctx with
  | nil => rfl
  | cons hop hops ih => rw [List.foldl_cons, List.foldl_cons, ih, correlation_pass]

/-! ## Chains that keep it -/

/-- The hop brings no id of its own. -/
def Hop.Plain : Hop → Prop
  | .message _ _ _ msg => correlationID msg.headers = ""
  | .http _ _ _ sets _ _ => ∀ kv ∈ sets, kv.1 ≠ requestIDHeader
  | .grpc md _ _ => md.lookup requestIDKey = none

theorem lastSet_eq_none {sets : List (String × String)} {key : String}
    (h : ∀ kv ∈ sets, kv.1 ≠ key) : lastSet sets key = none := by
  rw [lastSet]
  induction sets with
  | nil => rfl
  | cons kv sets ih =>
    rw [List.foldl_cons, if_neg (h kv List.mem_cons_self)]
    exact ih fun kv' hmem => h kv' (List.mem_cons_of_mem _ hmem)

theorem carry_eq {hop : Hop} {id : String} (hplain : hop.Plain) (hid : id ≠ "")
    (hline : lineValue id = id) : hop.carry id = id := by
  cases hop with
  | message producer consumer base msg =>
    rw [Hop.carry, show correlationID msg.headers = "" from hplain]
    simp only [if_true, hline, hid, if_false]
  | http client server hasBody sets uuid base =>
    rw [Hop.carry, lastSet_eq_none hplain, Option.getD_none, hline]
    exact if_neg hid
  | grpc md uuid base =>
    rw [Hop.carry, show md.lookup requestIDKey = none from hplain]
    exact if_neg hid

/-- Through hops that bring no id of their own, all handlers see the id of the first. -/
theorem correlation_kept (hops : List Hop) (hplain : ∀ hop ∈ hops, hop.Plain)
    (hid : correlationIDFromContext ctx ≠ "")
    (hline : lineValue (correlationIDFromContext ctx) = correlationIDFromContext ctx) :
    correlationIDFromContext (hops.foldl (Hop.pass extract) ctx) =
      correlationIDFromContext ctx := by
  rw [correlation_run]
  induction hops with
  | nil => rfl
  | cons hop hops ih =>
    rw [List.foldl_cons, carry_eq (hplain hop List.mem_cons_self) hid hline]
    exact ih fun hop' hmem => hplain hop' (List.mem_cons_of_mem _ hmem)

/-- An HTTP call, a message from its handler, and a gRPC call from there. -/
theorem three_hops :
    let draw : SpanDraw := ⟨.replicate 16 1, .replicate 8 1, 1, by decide, by decide⟩
    let hops : List Hop :=
      [.http draw draw true [("Authorization", "Bearer t")] "fresh" background,
        .message draw draw background ⟨"orders.created", [], []⟩, .grpc [] "fresh" background]
    correlationIDFromContext
      (hops.foldl (Hop.pass fun _ => none) (contextWithCorrelationID background "req-1")) =
        "req-1" := by
  intro draw hops
  refine correlation_kept hops (fun hop hmem => ?_) (by decide) (by decide)
  simp only [hops, List.mem_cons, List.not_mem_nil, or_false] at hmem
  rcases hmem with rfl | rfl | rfl
  · intro kv hkv
    cases List.mem_singleton.mp hkv
    decide
  · rfl
  · rfl

end Microjet.Messaging
