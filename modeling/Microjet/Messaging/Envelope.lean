import Microjet.Core.Jsonx
import Microjet.Messaging.Headers

/-!
# Typed handlers of envelopes (`messaging/envelope.go`, `messaging/handlers.go`)

`HandleEnvelope` reads the message data into an `Envelope`, takes its untyped body into a value
of the handler's type, and calls the handler with both. That the data is a JSON text, with
which tree, is said by `parse`.
-/

namespace Microjet.Messaging

open Assoc Errorx Jsonx

/-- `Envelope` -/
structure Envelope where
  type : String := ""
  id : String := ""
  name : String := ""
  source : String := ""
  target : Option String := none
  headers : List (String × Untyped) := []
  body : Untyped := .nil
  createdAt : ℤ := 0

/-- Its fields. -/
inductive EnvelopeField where
  | type | id | name | source | target | headers | body | createdAt
  deriving DecidableEq

namespace EnvelopeField

/-- The JSON name of a field. -/
def tag : EnvelopeField → String
  | type => "type"
  | id => "id"
  | name => "name"
  | source => "source"
  | target => "target"
  | headers => "headers"
  | body => "body"
  | createdAt => "createdAt"

/-- All of them. -/
def all : List EnvelopeField := [type, id, name, source, target, headers, body, createdAt]

/-- The field a key is read into. -/
def ofKey (lower : String → String) (key : String) : Option EnvelopeField :=
  (all.find? fun f => f.tag = key).or (all.find? fun f => lower f.tag = lower key)

end EnvelopeField

/-- `null` leaves a field of a type that has no nil as it is. -/
def readOr {α : Type} (old : α) (read : Json → Option α) (j : Json) : Option α :=
  if j.isNull then some old else read j

/-- Into a string. -/
def readString : Json → Option String
  | .str s => some s
  | _ => none

/-- Into a map. -/
def readNamed : Json → Option (List (String × Untyped))
  | .obj ms => unmarshalNamed ms
  | _ => none

/-- Into an `int64`. -/
def readInt64 : Json → Option ℤ
  | .num l => readInt true .w64 l
  | _ => none

namespace Envelope

/-- One member of the object; later ones replace what earlier ones have set, and the headers
are added to. -/
def set (env : Envelope) (j : Json) : EnvelopeField → Option Envelope
  | .type => (readOr env.type readString j).map fun s => { env with type := s }
  | .id => (readOr env.id readString j).map fun s => { env with id := s }
  | .name => (readOr env.name readString j).map fun s => { env with name := s }
  | .source => (readOr env.source readString j).map fun s => { env with source := s }
  | .target =>
    (readOr none (fun j => (readString j).map some) j).map fun s => { env with target := s }
  | .headers =>
    (readOr [] (fun j => (readNamed j).map fun ms => keepLast (env.headers ++ ms)) j).map
      fun ms => { env with headers := ms }
  | .body => (unmarshalAny j).map fun v => { env with body := v }
  | .createdAt => (readOr env.createdAt readInt64 j).map fun n => { env with createdAt := n }

/-- The members in turn. -/
def setAll (lower : String → String) : Envelope → List (String × Json) → Option Envelope
  | env, [] => some env
  | env, (k, j) :: ms =>
    match EnvelopeField.ofKey lower k with
    | none => setAll lower env ms
    | some f => (env.set j f).bind fun env' => setAll lower env' ms

/-- `json.Unmarshal` into an envelope. -/
def fromJSON (lower : String → String) : Option Json → Option Envelope
  | some .null => some {}
  | some (.obj ms) => setAll lower {} ms
  | _ => none

variable {τ ω : Type} (G : Types τ ω) (lower : String → String)

end Envelope

section Handle

variable {τ ω : Type} (G : Types τ ω) (lower : String → String)

end Handle

end Microjet.Messaging
