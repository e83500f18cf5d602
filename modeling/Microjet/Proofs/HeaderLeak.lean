import Microjet.Lib.Run
import Microjet.Messaging.Calls

/-!
# Header maps between calls

A call that injects something into the caller's map leaves it there, and the next call with that
map takes the correlation id it finds for the caller's own. So a run is right exactly if no call
changes a map: it is `nil`, or all that would be injected is in it already.
-/

namespace Microjet.Messaging

open Trace Outbox

/-- Equal as maps. -/
def SameContents (h h' : Headers) : Prop := ∀ key, h.lookup key = h'.lookup key

theorem SameContents.refl (h : Headers) : SameContents h h := fun _ => rfl

theorem SameContents.trans {h h' h'' : Headers} (h₁ : SameContents h h')
    (h₂ : SameContents h' h'') : SameContents h h'' := fun key => (h₁ key).trans (h₂ key)

theorem SameContents.correlationID {h h' : Headers} (hs : SameContents h h') :
    correlationID h = correlationID h' := by
  rw [Messaging.correlationID, Messaging.correlationID, headerValue, headerValue, hs]

namespace Propagator

variable {P : Propagator} {ctx : Ctx} {headers : Headers}

theorem lookup_inject :
    (P.inject ctx headers).lookup correlationIDHeader = headers.lookup correlationIDHeader := by
  have hfold : ∀ (kvs : List (String × String)) (headers : Headers),
      (∀ kv ∈ kvs, kv.1 ≠ correlationIDHeader) →
      (kvs.foldl (fun headers kv => setHeader headers kv.1 kv.2) headers).lookup
        correlationIDHeader = headers.lookup correlationIDHeader := by
    intro kvs
    induction kvs with
    | nil => exact fun headers _ => rfl
    | cons kv kvs ih =>
      intro headers h
      obtain ⟨hkv, hkvs⟩ := List.forall_mem_cons.mp h
      rw [List.foldl_cons, ih _ hkvs, lookup_setHeader_ne _ _ (Ne.symm hkv)]
  exact hfold _ headers (P.foreign ctx)

theorem correlationID_inject : correlationID (P.inject ctx headers) = correlationID headers := by
  rw [Messaging.correlationID, Messaging.correlationID, headerValue, headerValue, lookup_inject]

theorem correlationID_injectContext : correlationID (P.injectContext ctx headers) =
    if correlationID headers = "" then correlationIDFromContext ctx
    else correlationID headers := by
  rw [injectContext, correlationID_inject]
  split
  · next h =>
      rw [setCorrelationID, Messaging.correlationID, headerValue_setHeader_self, if_pos h.2]
  · next h =>
      rw [correlationID_inject]
      split
      · next hnone =>
          rw [hnone]
          by_contra hid
          exact h ⟨Ne.symm hid, hnone⟩
      · rfl

theorem sameContents_injectContext : SameContents (P.injectContext ctx headers) headers ↔
    SameContents (P.inject ctx headers) headers ∧
      (correlationIDFromContext ctx = "" ∨ correlationID headers ≠ "") := by
  by_cases hadd : correlationIDFromContext ctx ≠ "" ∧ correlationID headers = ""
  · have hset : P.injectContext ctx headers =
        setCorrelationID (P.inject ctx headers) (correlationIDFromContext ctx) := by
      rw [injectContext, correlationID_inject, if_pos hadd]
    refine iff_of_false (fun hsame => ?_) (fun h => ?_)
    · -- the id would have been there
      have hid := hsame.correlationID
      rw [hset, setCorrelationID, Messaging.correlationID, headerValue_setHeader_self] at hid
      exact hadd.1 (hid.trans hadd.2)
    · exact h.2.elim hadd.1 fun h => h hadd.2
  · have hset : P.injectContext ctx headers = P.inject ctx headers := by
      rw [injectContext, correlationID_inject, if_neg hadd]
    rw [hset]
    refine (and_iff_left ?_).symm
    by_contra h
    rw [not_or, not_not] at h
    exact hadd h

end Propagator

section Calls

variable {P : Propagator} {json : HeaderJSON} {own store : Store} {call : HeaderCall}

namespace HeaderCall

/-- The context of a call. -/
def ctx : HeaderCall → Ctx
  | .publish _ _ _ ctx _ => ctx
  | .request _ _ ctx _ => ctx
  | .enqueue _ _ ctx _ => ctx

/-- The map it is given. -/
def headers : HeaderCall → Option Nat
  | .publish _ _ _ _ msg => msg.headers
  | .request _ _ _ req => req.headers
  | .enqueue _ _ _ msg => msg.headers

/-- The context it injects, if it gets so far. -/
def injects : HeaderCall → Option Ctx
  | .publish _ _ draw ctx _ => if ctx.err.isSome then none else some (startWith draw ctx)
  | .request _ draw ctx _ => some (startWith draw ctx)
  | .enqueue wired _ ctx _ => if wired then some ctx else none

/-- The id of the call's context, unless the caller has put one into the map. -/
def ownID (own : Store) (call : HeaderCall) : String :=
  if correlationID (own.contents call.headers) = "" then correlationIDFromContext call.ctx
  else correlationID (own.contents call.headers)

end HeaderCall

/-- The stored headers have the id. -/
def RowCarries (json : HeaderJSON) (row : Row) (id : String) : Prop :=
  row.headers = [] ∧ id = "" ∨ ∃ headers, json.toJSON headers = .ok row.headers ∧
    correlationID headers = id

/-- What goes out carries the id of the call, where `own` is what the caller has put into the
maps, and no map changes. -/
structure Right (P : Propagator) (json : HeaderJSON) (own store : Store) (call : HeaderCall) :
    Prop where
  sent : ∀ m, (perform P json store call).1.sent = some m →
    correlationID m.header = call.ownID own
  stored : ∀ row, (perform P json store call).1.stored = some row →
    RowCarries json row (call.ownID own)
  unchanged : ∀ p, SameContents ((perform P json store call).2 p) (store p)

/-- The call has a map of its own, or nothing to add to the caller's. -/
def Harmless (P : Propagator) (store : Store) (call : HeaderCall) : Prop :=
  ∀ ctx p, call.injects = some ctx → call.headers = some p →
    SameContents (P.inject ctx (store p)) (store p) ∧
      (correlationIDFromContext ctx = "" ∨ correlationID (store p) ≠ "")

variable {ctx : Ctx}

theorem correlationIDFromContext_injects (h : call.injects = some ctx) :
    correlationIDFromContext ctx = correlationIDFromContext call.ctx := by
  have hstart (draw : Option SpanDraw) (ctx : Ctx) :
      correlationIDFromContext (startWith draw ctx) = correlationIDFromContext ctx := by
    cases draw <;> rfl
  cases call with
  | publish client send draw ctx msg =>
    rw [HeaderCall.injects] at h
    split at h
    · cases h
    · cases h
      exact hstart draw ctx
  | request send draw ctx req =>
    cases h
    exact hstart draw ctx
  | enqueue wired create ctx msg =>
    rw [HeaderCall.injects] at h
    split at h
    · cases h
      rfl
    · cases h

/-- What a call can do. -/
inductive Performs (P : Propagator) (json : HeaderJSON) (store : Store) (call : HeaderCall) :
    Effect × Store → Prop where
  | refused (h : call.injects = none) (err : Errorx.Err) :
      Performs P json store call ({ err := some err }, store)
  | sent {ctx : Ctx} (h : call.injects = some ctx) (msg : Outgoing) (err : Option Errorx.Err) :
      Performs P json store call
        ({ sent := some (msg.wire (P.injectInto ctx store call.headers).1), err },
          (P.injectInto ctx store call.headers).2)
  | inserted {ctx : Ctx} (h : call.injects = some ctx) (create : Row → Option Errorx.Err)
      (msg : Outgoing) :
      Performs P json store call
        (insertRow json create msg (P.injectInto ctx store call.headers).1,
          (P.injectInto ctx store call.headers).2)

theorem performs (P : Propagator) (json : HeaderJSON) (store : Store) (call : HeaderCall) :
    Performs P json store call (perform P json store call) := by
  cases call with
  | publish client send draw ctx msg =>
    rw [perform]
    cases hctx : ctx.err with
    | some err => exact .refused (by rw [HeaderCall.injects, hctx]; rfl) err
    | none => exact .sent (by rw [HeaderCall.injects, hctx]; rfl) msg _
  | request send draw ctx req => exact .sent rfl req _
  | enqueue wired create ctx msg =>
    cases wired with
    | false => exact .refused rfl _
    | true => exact .inserted rfl create msg

theorem injectInto_fst (ctx : Ctx) (p : Option Nat) :
    (P.injectInto ctx store p).1 = P.injectContext ctx (store.contents p) := by
  cases p <;> rfl

theorem injectInto_unchanged (ctx : Ctx) (p : Option Nat) :
    (∀ q, SameContents ((P.injectInto ctx store p).2 q) (store q)) ↔
      ∀ p', p = some p' → SameContents (P.inject ctx (store p')) (store p') ∧
        (correlationIDFromContext ctx = "" ∨ correlationID (store p') ≠ "") := by
  cases p with
  | none => exact iff_of_true (fun q => .refl _) nofun
  | some p =>
    simp only [Option.some.injEq, forall_eq', Propagator.injectInto]
    rw [← Propagator.sameContents_injectContext]
    constructor
    · intro h
      have hp := h p
      rw [Function.update_self] at hp
      exact hp
    · intro h q
      by_cases hq : q = p
      · subst hq
        rw [Function.update_self]
        exact h
      · rw [Function.update_of_ne hq]
        exact .refl _

theorem correlationID_injectInto (hsame : ∀ p, SameContents (store p) (own p))
    (h : call.injects = some ctx) :
    correlationID (P.injectInto ctx store call.headers).1 = call.ownID own := by
  have hcontents : SameContents (store.contents call.headers) (own.contents call.headers) := by
    cases call.headers with
    | none => exact .refl _
    | some p => exact hsame p
  rw [injectInto_fst, Propagator.correlationID_injectContext, hcontents.correlationID,
    correlationIDFromContext_injects h, HeaderCall.ownID]

variable {create : Row → Option Errorx.Err}

theorem sent_insertRow {msg : Outgoing} {headers : Headers} :
    (insertRow json create msg headers).sent = none := by
  simp only [insertRow]
  split
  · rfl
  · split <;> rfl

theorem rowCarries_insertRow {msg : Outgoing}
    {headers : Headers} {row : Row} (h : (insertRow json create msg headers).stored = some row) :
    RowCarries json row (correlationID headers) := by
  rw [insertRow] at h
  cases headers with
  | nil =>
    cases hcreate : create { subject := msg.subject, payload := msg.data } with
    | some err => simp [hcreate] at h
    | none =>
      simp [hcreate] at h
      cases h
      exact .inl ⟨rfl, rfl⟩
  | cons kv headers =>
    cases hjson : json.toJSON (kv :: headers) with
    | error err => simp [hjson, Except.map] at h
    | ok b =>
      cases hcreate : create { subject := msg.subject, payload := msg.data, headers := b } with
      | some err => simp [hjson, hcreate, Except.map] at h
      | none =>
        simp [hjson, hcreate, Except.map] at h
        cases h
        exact .inr ⟨_, hjson, rfl⟩

theorem Performs.snd {r : Effect × Store} (hr : Performs P json store call r)
    (h : call.injects = some ctx) : r.2 = (P.injectInto ctx store call.headers).2 := by
  cases hr with
  | refused hnone err => cases h.symm.trans hnone
  | sent h' msg err =>
    cases h.symm.trans h'
    rfl
  | inserted h' create msg =>
    cases h.symm.trans h'
    rfl

theorem right_iff_harmless (hsame : ∀ p, SameContents (store p) (own p)) :
    Right P json own store call ↔ Harmless P store call := by
  constructor
  · -- that the map is left as it was is all that is needed
    intro h ctx p hctx hp
    have hunchanged := h.unchanged
    rw [(performs P json store call).snd hctx, injectInto_unchanged] at hunchanged
    exact hunchanged p hp
  · intro h
    have hunchanged {ctx : Ctx} (hctx : call.injects = some ctx) :
        ∀ p, SameContents ((P.injectInto ctx store call.headers).2 p) (store p) :=
      (injectInto_unchanged ctx call.headers).mpr fun p hp => h ctx p hctx hp
    have hperforms := performs P json store call
    generalize hr : perform P json store call = r at hperforms
    cases hperforms with
    | refused hnone err =>
      refine ⟨?_, ?_, ?_⟩ <;> rw [hr]
      exacts [nofun, nofun, fun p => .refl _]
    | sent hctx msg err =>
      refine ⟨?_, ?_, ?_⟩ <;> rw [hr]
      · rintro _ ⟨⟩
        rw [Outgoing.wire, toNATSHeader_eq]
        exact correlationID_injectInto hsame hctx
      · nofun
      · exact hunchanged hctx
    | inserted hctx create msg =>
      refine ⟨?_, ?_, ?_⟩ <;> rw [hr]
      · exact fun m hm => absurd (hm.symm.trans sent_insertRow) (Option.some_ne_none m)
      · intro row hrow
        rw [← correlationID_injectInto hsame hctx]
        exact rowCarries_insertRow hrow
      · exact hunchanged hctx

/-- The maps after a call. -/
def next (P : Propagator) (json : HeaderJSON) (store : Store) (call : HeaderCall) :
    Option Store :=
  some (perform P json store call).2

/-- All calls of a sequence are right exactly if each is harmless when it comes. -/
theorem calls_right_iff (P : Propagator) (json : HeaderJSON) (own : Store)
    (calls : List HeaderCall) :
    Along (next P json) (Right P json own) own calls ↔
      Along (next P json) (Harmless P) own calls := by
  have hkeeps (store : Store) (call : HeaderCall) (store' : Store)
      (hsame : ∀ p, SameContents (store p) (own p)) (h : Right P json own store call)
      (hnext : next P json store call = some store') (p : Nat) :
      SameContents (store' p) (own p) := by
    cases hnext
    exact (h.unchanged p).trans (hsame p)
  have hown (p : Nat) : SameContents (own p) (own p) := .refl _
  constructor
  · exact Along.of_inv hkeeps (fun store call hsame h => (right_iff_harmless hsame).mp h) hown
  · refine Along.of_inv (fun store call store' hsame h => ?_)
      (fun store call hsame h => (right_iff_harmless hsame).mpr h) hown
    exact hkeeps store call store' hsame ((right_iff_harmless hsame).mpr h)

def noPropagator : Propagator where
  fields := fun _ => []
  foreign := nofun

/-- The second message goes out with the id of the first. -/
theorem second_message_has_first_id :
    let json : HeaderJSON := ⟨fun _ => .ok [], fun _ => .ok []⟩
    let publish (id : String) : HeaderCall :=
      .publish .nats (fun _ => none) none { correlation := some id } ⟨"orders", [], some 0⟩
    let first := perform noPropagator json (fun _ => []) (publish "a")
    let second := perform noPropagator json first.2 (publish "b")
    first.2 0 = [(correlationIDHeader, ["a"])] ∧
      second.1.sent.map (fun m => correlationID m.header) = some "a" := by
  decide

end Calls

end Microjet.Messaging
