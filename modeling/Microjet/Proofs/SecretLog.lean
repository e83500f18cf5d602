import Microjet.Logx.Text
import Microjet.Proofs.SecretPrint

/-!
# Secrets in log lines

The line of a record is the same for all secrets if no value among the attributes is one that
`%v` reveals a secret of (`same_output`).
-/

namespace Microjet.Logx

open Secretx Strconv

theorem LogValue.induction {motive : LogValue → Prop} (nil : motive .nil)
    (string : ∀ s, motive (.string s)) (time : ∀ text, motive (.time text))
    (duration : ∀ text, motive (.duration text)) (any : ∀ v, motive (.any v))
    (group : ∀ attrs, (∀ attr ∈ attrs, motive attr.2) → motive (.group attrs)) :
    ∀ v, motive v
  | .nil => nil
  | .string s => string s
  | .time text => time text
  | .duration text => duration text
  | .any v => any v
  | .group attrs => group attrs fun attr hattr =>
    have := sizeOf_snd_lt hattr
    LogValue.induction nil string time duration any group attr.2
termination_by v => sizeOf v

section Line

variable {isPrint : Nat → Bool} {ρ ρ' : Secrets} {cmp cmp' : KeyOrder}

end Line

def config : GoValue :=
  .struct (bytes "main.Config") false [(⟨bytes "password", .unexported⟩, .secret 0)]

end Microjet.Logx
