import Microjet.Core.PagedResult
import Microjet.Dynamo.Uuid
import Microjet.Lib.Netstring
import Microjet.Lib.Utf8
import Microjet.Middleware.Gin

/-!
# The idempotency middleware (`httpx/middleware/idempotency.go`)

`serve` is the middleware for one request, over a store that neither fails nor forgets, so the
time to live is left out. It says, besides what it wrote, whether the handler ran and the
store was touched, and whether the response was stored or came from the store. SHA-256 and
`encoding/json` are arguments. `Context.Abort` keeps the handler from running.
-/

namespace Microjet.Middleware

open Errorx Gin Microjet.Types Dynamo

/-- `defaultIdempotencyHeader` -/
def defaultIdempotencyHeader : GoString := bytes "Idempotency-Key"

/-- The header of a replayed response. -/
def replayedHeader : GoString := bytes "Idempotent-Replayed"

/-- The writer that the outer layers left, without a content type. -/
structure Entry where
  header : Header
  status : Int
  positive : 0 < status
  noContentType : header contentType = []

/-- gin's writer in it. -/
def Entry.writer (e : Entry) : ResponseWriter := { header := e.header, status := e.status }

/-- A request; `ctx` is whatever else the scope function looks at. -/
structure Request (κ : Type) where
  method : GoString
  uri : GoString
  header : GoString → GoString
  body : Except Err GoString
  ctx : κ
  entry : Entry

/-- What the handler does if it is run. -/
structure Behaviour where
  calls : List Call
  errs : List Err := []
  panics : Bool := false

/-- `idempotencyConfig` -/
structure IdempotencyConfig (κ : Type) where
  header : GoString := defaultIdempotencyHeader
  methods : GoString → Bool := fun m =>
    [bytes "POST", bytes "PUT", bytes "PATCH", bytes "DELETE"].contains m
  scope : Request κ → GoString

/-- The default of `shouldSave`. -/
def shouldSave (status : Int) : Bool := status < 500

/-- `WithIdempotencyHeader` -/
def withIdempotencyHeader {κ : Type} (header : GoString) (c : IdempotencyConfig κ) :
    IdempotencyConfig κ :=
  if header ≠ [] then { c with header } else c

/-- `WithIdempotencyMethods` -/
def withIdempotencyMethods {κ : Type} (methods : List GoString) (c : IdempotencyConfig κ) :
    IdempotencyConfig κ :=
  { c with methods := fun m => methods.contains m }

/-- `WithIdempotencyScope` -/
def withIdempotencyScope {κ : Type} (scope : Option (Request κ → GoString))
    (c : IdempotencyConfig κ) : IdempotencyConfig κ :=
  match scope with
  | some scope => { c with scope }
  | none => c

/-- Who a request is from. -/
structure Caller where
  tenantID : Option UUID
  subject : Option GoString

/-- `defaultIdempotencyScope` -/
def defaultIdempotencyScope (c : Caller) : GoString :=
  (match c.tenantID with
    | some id => id.string
    | none => []) ++ bytes "/" ++ c.subject.getD []

/-- `storedResponse` -/
structure StoredResponse where
  status : Int
  contentType : GoString
  body : GoString
  fingerprint : GoString
  deriving DecidableEq, Repr

/-! ### Keys and fingerprints -/

/-- `sha256.Sum256` -/
abbrev Digest := GoString → Vector UInt8 32

theorem isDigit_toNat {ch : Char} (h : ch.isDigit = true) : 48 ≤ ch.toNat ∧ ch.toNat ≤ 57 := by
  simp only [Char.isDigit, Bool.and_eq_true, decide_eq_true_eq] at h
  exact h

theorem digit_byte {n : Nat} {ch : Char} (h : ch ∈ Nat.toDigits 10 n) :
    ch.toNat.toUInt8.toNat = ch.toNat ∧ 48 ≤ ch.toNat ∧ ch.toNat ≤ 57 := by
  have hdigit := isDigit_toNat (Nat.isDigit_of_mem_toDigits (by decide) (by decide) h)
  refine ⟨?_, hdigit⟩
  rw [Nat.toUInt8_eq, UInt8.toNat_ofNat']
  omega

/-- Lengths in decimals, followed by a colon. -/
def decimal : Netstring.Numerals UInt8 where
  sep := 58
  num n := (Nat.toDigits 10 n).map fun ch => ch.toNat.toUInt8
  value text := Nat.ofDigitChars 10 (text.map fun b => Char.ofNat b.toNat) 0
  value_num := by
    intro n
    have hmap : ((Nat.toDigits 10 n).map fun ch => ch.toNat.toUInt8).map
        (fun b => Char.ofNat b.toNat) = Nat.toDigits 10 n := by
      rw [List.map_map]
      refine (List.map_congr_left fun ch hch => ?_).trans (List.map_id _)
      show Char.ofNat ch.toNat.toUInt8.toNat = ch
      rw [(digit_byte hch).1, Char.ofNat_toNat]
    rw [hmap, Nat.ofDigitChars_ten_toDigits]
  sep_notMem := by
    intro n hmem
    obtain ⟨ch, hch, heq⟩ := List.mem_map.mp hmem
    have hbyte := digit_byte hch
    have hnat : ch.toNat.toUInt8.toNat = 58 := congrArg UInt8.toNat heq
    omega

/-- What is hashed for a key. -/
def keyText (parts : List GoString) : GoString := Netstring.frames decimal parts

/-- The digest in hexadecimal. -/
def hexDigest (sha256 : Digest) (b : GoString) : GoString := hexText (sha256 b).toList

/-- What a key is made of. -/
structure Slot where
  scope : GoString
  method : GoString
  uri : GoString
  key : GoString
  deriving DecidableEq, Repr

/-- Its text. -/
def Slot.text (s : Slot) : GoString := keyText [s.scope, s.method, s.uri, s.key]

/-- `idempotencyKey` -/
def idempotencyKey (sha256 : Digest) (s : Slot) : GoString :=
  bytes "idem:" ++ hexDigest sha256 s.text

/-- `fingerprintBody` -/
def fingerprintBody (sha256 : Digest) {κ : Type} (req : Request κ) : Except Err GoString :=
  req.body.map (hexDigest sha256)

/-! ### The capturing writer -/

/-- `responseCapture` -/
structure ResponseCapture where
  under : ResponseWriter
  body : GoString := []

namespace ResponseCapture

/-- `Write` -/
def write (w : ResponseCapture) (b : GoString) : ResponseCapture :=
  ⟨w.under.write b, w.body ++ b⟩

/-- `WriteString` -/
def writeString (w : ResponseCapture) (s : GoString) : ResponseCapture :=
  ⟨w.under.call (.writeString s), w.body ++ s⟩

/-- A call on the capture. -/
def call (w : ResponseCapture) : Call → ResponseCapture
  | .write b => w.write b
  | .writeString s => w.writeString s
  | c => { w with under := w.under.call c }

/-- Several. -/
def calls (w : ResponseCapture) (cs : List Call) : ResponseCapture := cs.foldl call w

end ResponseCapture

/-! ### The middleware -/

/-- The cache. -/
abbrev IdempotencyStore := GoString → Option GoString

/-- What became of a request. -/
structure Served where
  writer : ResponseWriter
  errs : List Err := []
  panicked : Bool := false
  ran : Bool
  touched : Bool
  stored : Bool := false
  replayed : Bool := false

/-- The middleware. -/
structure Idempotency (κ : Type) where
  cfg : IdempotencyConfig κ
  sha256 : Digest
  json : JSON StoredResponse

namespace Idempotency

variable {κ : Type} (mw : Idempotency κ)

/-- The slot of a request. -/
def slot (req : Request κ) : Slot where
  scope := mw.cfg.scope req
  method := req.method
  uri := req.uri
  key := req.header mw.cfg.header

/-- The handler panics, by itself or in one of its calls. -/
def panicked (req : Request κ) (h : Behaviour) : Bool :=
  h.panics || !req.entry.writer.returns h.calls

/-- The handler, without the middleware. -/
def next (req : Request κ) (h : Behaviour) : Served where
  writer := req.entry.writer.calls (req.entry.writer.made h.calls)
  errs := h.errs
  panicked := panicked req h
  ran := true
  touched := false

/-- The body of the 422. -/
def reusedBody : GoString :=
  bytes ("\x7b\"error\":\"idempotency_key_reused\",\"message\":\"the idempotency key was " ++
    "already used for a request with a different body\"\x7d")

/-- The key was used for another body. -/
def reuse (req : Request κ) : Served where
  writer := req.entry.writer.calls (Gin.json 422 reusedBody)
  ran := false
  touched := true

/-- The calls a stored response is written with. -/
def replayCalls (stored : StoredResponse) : List Call :=
  .header (fun h => h.set replayedHeader (bytes "true")) ::
    data stored.status stored.contentType stored.body

/-- The answer from the store. -/
def replay (req : Request κ) (stored : StoredResponse) : Served where
  writer := req.entry.writer.calls (req.entry.writer.made (replayCalls stored))
  panicked := !req.entry.writer.returns (replayCalls stored)
  ran := false
  touched := true
  replayed := true

/-- The handler runs, and its response may be stored. -/
def handle (req : Request κ) (h : Behaviour) (storeKey fingerprint : GoString)
    (store : IdempotencyStore) : Served × IdempotencyStore :=
  let capture := ResponseCapture.calls { under := req.entry.writer }
    (req.entry.writer.made h.calls)
  let served : Served :=
    { writer := capture.under
      errs := h.errs
      panicked := panicked req h
      ran := true
      touched := true }
  if panicked req h then (served, store)
  else
    let status := capture.under.status
    if h.errs ≠ [] ∨ shouldSave status = false then (served, store)
    else
      let stored : StoredResponse :=
        ⟨status, capture.under.header.get contentType, capture.body, fingerprint⟩
      match mw.json.marshal stored with
      | .ok data => ({ served with stored := true }, Function.update store storeKey (some data))
      | .error _ => (served, store)

/-- What is stored under a key. -/
def find (store : IdempotencyStore) (storeKey : GoString) : Option StoredResponse :=
  match store storeKey with
  | some data => (mw.json.unmarshal data).toOption
  | none => none

/-- The middleware, for one request. -/
def serve (req : Request κ) (h : Behaviour) (store : IdempotencyStore) :
    Served × IdempotencyStore :=
  if mw.cfg.methods req.method = false then (next req h, store)
  else if req.header mw.cfg.header = [] then (next req h, store)
  else
    match fingerprintBody mw.sha256 req with
    | .error err =>
      ({ writer := req.entry.writer
         errs := [(newBadRequestError "idempotency" "reading request body failed").withInner err]
         ran := false
         touched := false }, store)
    | .ok fingerprint =>
      let storeKey := idempotencyKey mw.sha256 (mw.slot req)
      match mw.find store storeKey with
      | some stored =>
        if stored.fingerprint ≠ fingerprint then (reuse req, store)
        else (replay req stored, store)
      | none => mw.handle req h storeKey fingerprint store

/-- The store after some requests. -/
def storeAfter (rs : List (Request κ × Behaviour)) : IdempotencyStore :=
  rs.foldl (fun store r => (mw.serve r.1 r.2 store).2) fun _ => none

/-- What becomes of a request after others. -/
def served (rs : List (Request κ × Behaviour)) (req : Request κ) (h : Behaviour) : Served :=
  (mw.serve req h (mw.storeAfter rs)).1

end Idempotency

end Microjet.Middleware
