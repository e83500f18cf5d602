import Microjet.Lib.Memo
import Microjet.Proofs.GinCalls
import Microjet.Proofs.IdempotencyKey

/-!
# The idempotency middleware is a memo table

The middleware's store holds what the table holds, under hashed keys, in JSON and with a hash in
place of the body (`Sim`). The two agree as long as no two of the texts hashed collide. JSON
makes strings valid UTF-8 (`latin1_replaced`).
-/

namespace Microjet.Middleware

open Gin Microjet.Types Dynamo

/-- What a response is remembered as. -/
structure Final where
  status : Int
  contentType : GoString
  body : GoString
  deriving DecidableEq, Repr

/-- As `encoding/json` documents: all comes back but strings, which are coerced to valid UTF-8. -/
def CoercesStrings (json : JSON StoredResponse) : Prop :=
  ∀ r, ∃ data, json.marshal r = .ok data ∧ json.unmarshal data =
    .ok { r with
      contentType := Utf8.coerce r.contentType
      fingerprint := Utf8.coerce r.fingerprint }

namespace Idempotency

variable {κ : Type} {mw : Idempotency κ} {req : Request κ} {h : Behaviour}
  {store : IdempotencyStore} {body : GoString}

/-- The middleware has something to do. -/
def keyed (mw : Idempotency κ) (req : Request κ) : Bool :=
  mw.cfg.methods req.method && decide (req.header mw.cfg.header ≠ [])

/-- The body asked with. -/
def asked (mw : Idempotency κ) (req : Request κ) : Option GoString :=
  if mw.keyed req then req.body.toOption else none

/-- What the handler's response is remembered as, if at all. -/
def final (req : Request κ) (h : Behaviour) : Option Final :=
  if panicked req h = false ∧ h.errs = [] ∧
      shouldSave (req.entry.writer.calls h.calls).status = true then
    some ⟨(req.entry.writer.calls h.calls).status,
      (req.entry.writer.calls h.calls).header.get contentType, payloads h.calls⟩
  else none

/-- The request as a job. -/
def job (mw : Idempotency κ) (r : Request κ × Behaviour) :
    Option (Memo.Job Slot GoString Final) :=
  (mw.asked r.1).map fun body => ⟨mw.slot r.1, body, final r.1 r.2⟩

/-- The table after some requests. -/
def memoAfter (mw : Idempotency κ) (rs : List (Request κ × Behaviour)) :
    Memo.Table Slot GoString Final :=
  Memo.after (rs.map mw.job)

/-- The stored response. -/
def written (mw : Idempotency κ) (r : GoString × Final) : StoredResponse :=
  ⟨r.2.status, Utf8.coerce r.2.contentType, r.2.body, hexDigest mw.sha256 r.1⟩

/-- The texts hashed for a request. -/
def hashed (mw : Idempotency κ) (req : Request κ) : List GoString :=
  match mw.asked req with
  | some body => [body, (mw.slot req).text]
  | none => []

/-- SHA-256 has no collision among the texts hashed for these requests. -/
def CollisionFree (mw : Idempotency κ) (reqs : List (Request κ)) : Prop :=
  ∀ x ∈ reqs.flatMap mw.hashed, ∀ y ∈ reqs.flatMap mw.hashed,
    mw.sha256 x = mw.sha256 y → x = y

theorem capture_calls (w : ResponseCapture) (cs : List Call) :
    w.calls cs = ⟨w.under.calls cs, w.body ++ payloads cs⟩ := by
  induction cs generalizing w with
  | nil => simp [ResponseCapture.calls, ResponseWriter.calls, payloads]
  | cons c cs ih =>
    have hcall : w.call c = ⟨w.under.call c, w.body ++ c.payload⟩ := by
      cases c <;> simp [ResponseCapture.call, ResponseCapture.write,
        ResponseCapture.writeString, ResponseWriter.call, Call.payload]
    show (w.call c).calls cs = _
    rw [ih, hcall]
    simp [payloads, ResponseWriter.calls]

theorem hexByte_ascii {n : Nat} (hn : n < 16) : hexByte n < 0x80 := by
  have hall : ∀ n : Fin 16, hexByte n < 0x80 := by decide
  exact hall ⟨n, hn⟩

theorem hexText_ascii (b : List UInt8) : ∀ c ∈ hexText b, c < 0x80 := by
  intro c hc
  obtain ⟨a, _, hc⟩ := List.mem_flatMap.mp hc
  have ha := a.toNat_lt
  have hc : c = hexByte (a.toNat / 16) ∨ c = hexByte (a.toNat % 16) := by simpa using hc
  obtain rfl | rfl := hc
  · exact hexByte_ascii (by omega)
  · exact hexByte_ascii (by omega)

theorem coerce_hexDigest (sha256 : Digest) (b : GoString) :
    Utf8.coerce (hexDigest sha256 b) = hexDigest sha256 b :=
  (Utf8.coerce_eq_iff _).mpr (Utf8.valid_of_ascii (hexText_ascii _))

theorem hexDigest_inj {sha256 : Digest} {a b : GoString}
    (heq : hexDigest sha256 a = hexDigest sha256 b) : sha256 a = sha256 b :=
  Vector.toList_inj.mp (hexText_inj heq)

theorem asked_eq_some (hasked : mw.asked req = some body) :
    mw.keyed req = true ∧ req.body = .ok body := by
  unfold asked at hasked
  split at hasked
  · next hkeyed =>
      cases hbody : req.body with
      | error err => simp [hbody, Except.toOption] at hasked
      | ok b =>
        simp only [hbody, Except.toOption, Option.some.injEq] at hasked
        exact ⟨hkeyed, by rw [hasked]⟩
  · simp at hasked

theorem serve_unkeyed (hkeyed : mw.keyed req = false) :
    mw.serve req h store = (next req h, store) := by
  unfold serve
  split
  · rfl
  · next hmethod =>
      rw [if_pos]
      simpa [keyed, hmethod] using hkeyed

theorem serve_unreadable {err : Errorx.Err} (hkeyed : mw.keyed req = true)
    (hbody : req.body = .error err) :
    mw.serve req h store =
      ({ writer := req.entry.writer
         errs := [(Errorx.newBadRequestError "idempotency"
           "reading request body failed").withInner err]
         ran := false
         touched := false }, store) := by
  simp only [keyed, Bool.and_eq_true, decide_eq_true_eq] at hkeyed
  simp [serve, hkeyed.1, hkeyed.2, fingerprintBody, hbody, Except.map]

theorem serve_unasked (hasked : mw.asked req = none) :
    (mw.serve req h store).2 = store ∧ (mw.serve req h store).1.stored = false ∧
      (mw.serve req h store).1.replayed = false ∧
      (mw.keyed req = true → (mw.serve req h store).1.ran = false) := by
  cases hkeyed : mw.keyed req with
  | false =>
    rw [serve_unkeyed hkeyed]
    exact ⟨rfl, rfl, rfl, fun h => absurd h (by simp)⟩
  | true =>
    cases hbody : req.body with
    | error err =>
      rw [serve_unreadable hkeyed hbody]
      exact ⟨rfl, rfl, rfl, fun _ => rfl⟩
    | ok b => simp [asked, hkeyed, hbody, Except.toOption] at hasked

theorem serve_hit {stored : StoredResponse} (hasked : mw.asked req = some body)
    (hfind : mw.find store (idempotencyKey mw.sha256 (mw.slot req)) = some stored) :
    mw.serve req h store =
      if stored.fingerprint = hexDigest mw.sha256 body then (replay req stored, store)
      else (reuse req, store) := by
  obtain ⟨hkeyed, hbody⟩ := asked_eq_some hasked
  simp only [keyed, Bool.and_eq_true, decide_eq_true_eq] at hkeyed
  simp [serve, hkeyed.1, hkeyed.2, fingerprintBody, hbody, Except.map, hfind]

theorem serve_miss (hasked : mw.asked req = some body)
    (hfind : mw.find store (idempotencyKey mw.sha256 (mw.slot req)) = none) :
    mw.serve req h store =
      mw.handle req h (idempotencyKey mw.sha256 (mw.slot req)) (hexDigest mw.sha256 body)
        store := by
  obtain ⟨hkeyed, hbody⟩ := asked_eq_some hasked
  simp only [keyed, Bool.and_eq_true, decide_eq_true_eq] at hkeyed
  simp [serve, hkeyed.1, hkeyed.2, fingerprintBody, hbody, Except.map, hfind]

theorem made_of_panicked (h' : panicked req h = false) :
    req.entry.writer.made h.calls = h.calls := by
  refine ResponseWriter.made_of_returns ?_
  simp only [panicked, Bool.or_eq_false_iff, Bool.not_eq_false'] at h'
  exact h'.2

/-- What a request is served when its handler runs. -/
def handlerServed (req : Request κ) (h : Behaviour) (stored : Bool) : Served where
  writer := req.entry.writer.calls (req.entry.writer.made h.calls)
  errs := h.errs
  panicked := panicked req h
  ran := true
  touched := true
  stored := stored

theorem handle_none {storeKey fingerprint : GoString} (hfinal : final req h = none) :
    mw.handle req h storeKey fingerprint store = (handlerServed req h false, store) := by
  unfold final at hfinal
  unfold handle
  simp only [capture_calls]
  split
  · rfl
  · next hpanics =>
      rw [if_pos]
      · rfl
      · by_contra hnot
        simp_all [made_of_panicked]

theorem handle_some {f : Final} (hjson : CoercesStrings mw.json)
    (hfinal : final req h = some f) (body storeKey : GoString) (store : IdempotencyStore) :
    ∃ data, mw.handle req h storeKey (hexDigest mw.sha256 body) store =
        (handlerServed req h true, Function.update store storeKey (some data)) ∧
      mw.json.unmarshal data = .ok (mw.written (body, f)) := by
  unfold final at hfinal
  split at hfinal
  · next hcond =>
      cases hfinal
      obtain ⟨data, hmarshal, hunmarshal⟩ := hjson
        ⟨(req.entry.writer.calls h.calls).status,
          (req.entry.writer.calls h.calls).header.get contentType, payloads h.calls,
          hexDigest mw.sha256 body⟩
      refine ⟨data, ?_, ?_⟩
      · unfold handle
        simp [capture_calls, made_of_panicked hcond.1, hcond, hmarshal, handlerServed]
      · rw [hunmarshal]
        simp [written, coerce_hexDigest]
  · simp at hfinal

/-! ### The store and the table -/

/-- The store holds what the table holds. -/
def Sim (mw : Idempotency κ) (slots : List Slot) (store : IdempotencyStore)
    (memo : Memo.Table Slot GoString Final) : Prop :=
  ∀ s ∈ slots, mw.find store (idempotencyKey mw.sha256 s) = (memo s).map mw.written

/-- The slots of some requests. -/
def slots (mw : Idempotency κ) (reqs : List (Request κ)) : List Slot :=
  (reqs.filter fun req => (mw.asked req).isSome).map mw.slot

theorem mem_slots {reqs : List (Request κ)} {s : Slot} :
    s ∈ mw.slots reqs ↔ ∃ req ∈ reqs, (mw.asked req).isSome = true ∧ mw.slot req = s := by
  simp [slots, and_assoc]

theorem mem_hashed {reqs : List (Request κ)} (hreq : req ∈ reqs)
    (hasked : mw.asked req = some body) :
    body ∈ reqs.flatMap mw.hashed ∧ (mw.slot req).text ∈ reqs.flatMap mw.hashed := by
  have hhashed : mw.hashed req = [body, (mw.slot req).text] := by simp [hashed, hasked]
  exact ⟨List.mem_flatMap.mpr ⟨req, hreq, by simp [hhashed]⟩,
    List.mem_flatMap.mpr ⟨req, hreq, by simp [hhashed]⟩⟩

theorem key_inj {reqs : List (Request κ)} (hfree : mw.CollisionFree reqs) {s s' : Slot}
    (hs : s ∈ mw.slots reqs) (hs' : s' ∈ mw.slots reqs)
    (heq : idempotencyKey mw.sha256 s = idempotencyKey mw.sha256 s') : s = s' := by
  obtain ⟨req, hreq, hasked, rfl⟩ := mem_slots.mp hs
  obtain ⟨req', hreq', hasked', rfl⟩ := mem_slots.mp hs'
  obtain ⟨body, hbody⟩ := Option.isSome_iff_exists.mp hasked
  obtain ⟨body', hbody'⟩ := Option.isSome_iff_exists.mp hasked'
  have hdigest := hexDigest_inj (List.append_cancel_left heq)
  exact slot_text_inj
    (hfree _ (mem_hashed hreq hbody).2 _ (mem_hashed hreq' hbody').2 hdigest)

theorem find_update_self {storeKey data : GoString} :
    mw.find (Function.update store storeKey (some data)) storeKey =
      (mw.json.unmarshal data).toOption := by
  simp [find]

theorem find_update_of_ne {storeKey storeKey' : GoString} {data : Option GoString}
    (hne : storeKey' ≠ storeKey) :
    mw.find (Function.update store storeKey data) storeKey' = mw.find store storeKey' := by
  simp [find, Function.update_of_ne hne]

theorem Sim.step {reqs : List (Request κ)} {memo : Memo.Table Slot GoString Final}
    (hsim : mw.Sim (mw.slots reqs) store memo) (hjson : CoercesStrings mw.json)
    (hfree : mw.CollisionFree reqs) (hreq : req ∈ reqs) :
    mw.Sim (mw.slots reqs) (mw.serve req h store).2 (Memo.step memo (mw.job (req, h))) := by
  cases hasked : mw.asked req with
  | none =>
    have hjob : mw.job (req, h) = none := by simp [job, hasked]
    rw [(serve_unasked hasked).1, hjob]
    exact hsim
  | some body =>
    have hslot : mw.slot req ∈ mw.slots reqs :=
      mem_slots.mpr ⟨req, hreq, by simp [hasked], rfl⟩
    have hjob : mw.job (req, h) = some ⟨mw.slot req, body, final req h⟩ := by
      simp [job, hasked]
    have hfind := hsim _ hslot
    rw [hjob]
    cases hmemo : memo (mw.slot req) with
    | some r =>
      rw [hmemo] at hfind
      have hsame : (mw.serve req h store).2 = store := by
        rw [serve_hit hasked hfind]
        split <;> rfl
      rw [hsame]
      simpa [Memo.step, hmemo] using hsim
    | none =>
      rw [hmemo] at hfind
      rw [serve_miss hasked hfind]
      cases hfinal : final req h with
      | none =>
        rw [handle_none hfinal]
        simpa [Memo.step, hmemo] using hsim
      | some f =>
        obtain ⟨data, hhandle, hunmarshal⟩ := handle_some hjson hfinal body
          (idempotencyKey mw.sha256 (mw.slot req)) store
        rw [hhandle]
        intro s hs
        by_cases heq : s = mw.slot req
        · rw [heq, find_update_self, hunmarshal]
          simp [Memo.step, hmemo, Except.toOption]
        · rw [find_update_of_ne (fun hkey => heq (key_inj hfree hs hslot hkey)),
            hsim s hs]
          simp [Memo.step, hmemo, Function.update_of_ne heq]

theorem storeAfter_snoc (rs : List (Request κ × Behaviour)) (r : Request κ × Behaviour) :
    mw.storeAfter (rs ++ [r]) = (mw.serve r.1 r.2 (mw.storeAfter rs)).2 := by
  simp [storeAfter]

theorem memoAfter_snoc (rs : List (Request κ × Behaviour)) (r : Request κ × Behaviour) :
    mw.memoAfter (rs ++ [r]) = Memo.step (mw.memoAfter rs) (mw.job r) := by
  rw [memoAfter, List.map_append, List.map_singleton, Memo.after_snoc, memoAfter]

theorem run_sim {reqs : List (Request κ)} (hjson : CoercesStrings mw.json)
    (hfree : mw.CollisionFree reqs) {rs : List (Request κ × Behaviour)}
    (hrs : ∀ r ∈ rs, r.1 ∈ reqs) :
    mw.Sim (mw.slots reqs) (mw.storeAfter rs) (mw.memoAfter rs) := by
  induction rs using List.reverseRecOn with
  | nil => exact fun s _ => rfl
  | append_singleton rs r ih =>
    rw [storeAfter_snoc, memoAfter_snoc]
    exact (ih fun r' hr' => hrs r' (List.mem_append_left _ hr')).step hjson hfree
      (hrs r (by simp))

/-! ### What is replayed -/

section Run

variable {rs : List (Request κ × Behaviour)} {f : Final}

theorem CollisionFree.before {before after : List (Request κ × Behaviour)} {req' : Request κ}
    {h' : Behaviour}
    (hfree : mw.CollisionFree ((before ++ (req', h') :: after).map Prod.fst ++ [req])) :
    mw.CollisionFree (before.map Prod.fst ++ [req']) := by
  have hsub : ∀ x ∈ (before.map Prod.fst ++ [req']).flatMap mw.hashed,
      x ∈ ((before ++ (req', h') :: after).map Prod.fst ++ [req]).flatMap mw.hashed := by
    intro x hx
    obtain ⟨r, hr, hxr⟩ := List.mem_flatMap.mp hx
    refine List.mem_flatMap.mpr ⟨r, ?_, hxr⟩
    obtain hr | hr := List.mem_append.mp hr
    · simp only [List.map_append, List.mem_append]
      exact .inl (.inl hr)
    · rw [List.mem_singleton.mp hr]
      simp
  exact fun x hx y hy heq => hfree x (hsub x hx) y (hsub y hy) heq

end Run

/-! ### A retried payment -/

end Idempotency

end Microjet.Middleware
