import Microjet.Messaging.Envelope
import Microjet.Proofs.JsonPasses

/-!
# Bodies of envelopes that arrive unchanged

`ExtractBodyTo` writes the untyped body and reads the text into the handler's type. A text with
a number that no double holds makes the whole envelope fail.
-/

namespace Microjet.Messaging

open Assoc Binary Errorx Jsonx

variable {lower : String → String}

namespace Envelope

end Envelope

section Handle

variable {τ ω : Type}

/-- An order as JSON. -/
def orderJSON (n : ℕ) : Json := .obj [("id", .num { digits := n })]

end Handle

end Microjet.Messaging
