import Microjet.Messaging.Propagation

/-!
# Outbox rows and the enqueuer (`outbox/outbox.go`)

`Enqueue` builds a row of `outbox_messages` from a message and the caller's context; inserting
it belongs to `Outbox/Db.lean`. `CreatedAt` is left out: the relay never reads it.
-/

namespace Microjet.Outbox

open Errorx Messaging

/-- A time in nanoseconds. -/
abbrev Time := Int

/-- One row of the outbox table. A column that is `NULL` is `none`; `Headers`
is empty when the message has none. -/
structure Row where
  id : Nat := 0
  subject : String
  payload : Bytes
  headers : Bytes := []
  publishedAt : Option Time := none
  failedAt : Option Time := none
  attempts : Nat := 0
  lastError : String := ""
  deriving DecidableEq, Repr

/-- Not published and not quarantined: `published_at IS NULL AND failed_at IS
NULL`. -/
def Row.pending (m : Row) : Bool := m.publishedAt.isNone && m.failedAt.isNone

/-- The JSON texts of header maps. -/
structure HeaderJSON where
  toJSON : Headers → Except Err Bytes
  fromJSON : Bytes → Except Err Headers

/-- `Enqueue` up to the insert: the row, or the error. `wired` says that there is a table. -/
def enqueue (json : HeaderJSON) (wired : Bool) (ctx : Ctx) (msg : Message) :
    Except Err Row :=
  if !wired then
    .error (newInternalError "outbox"
      "enqueuer is not initialized; build it with NewEnqueuer or resolve outbox.Of after the app is set up")
  else
    let row : Row := { subject := msg.subject, payload := msg.data }
    let headers := injectContext ctx msg.headers
    if headers.length > 0 then
      match json.toJSON headers with
      | .error err =>
        .error (((newInternalError "outbox" "encoding message headers failed").withParams
          [("subject", msg.subject)]).withInner err)
      | .ok h => .ok { row with headers := h }
    else .ok row

theorem enqueue_fresh {json : HeaderJSON} {wired : Bool} {ctx : Ctx}
    {msg : Message} {row : Row} (h : enqueue json wired ctx msg = .ok row) :
    row.subject = msg.subject ∧ row.payload = msg.data ∧ row.publishedAt = none ∧
      row.failedAt = none ∧ row.attempts = 0 := by
  unfold enqueue at h
  split at h
  · cases h
  · dsimp only at h
    split at h
    · split at h
      · cases h
      · cases h; exact ⟨rfl, rfl, rfl, rfl, rfl⟩
    · cases h; exact ⟨rfl, rfl, rfl, rfl, rfl⟩

end Microjet.Outbox
