import Microjet.Core.Go
import Microjet.Lib.Base64

/-!
# Pages (`core/types/paged_result.go`)

The containers of a paged list, and page tokens: a value as JSON, in base64. Of a base64
error the position in its text is left out.
-/

namespace Microjet.Types

open Errorx

def defaultPageSize : Nat := 10

def maxPageSize : Nat := 1000

/-- `PagedResult` -/
structure PagedResult (ρ : Type) where
  items : List ρ
  pageSize : Int
  totalCount : Int
  nextPageToken : Option GoString

/-- `PagedResultRequest` -/
structure PagedResultRequest where
  pageSize : Int
  nextPageToken : Option GoString
  page : Option Int

/-- The JSON library, at one type. -/
structure JSON (α : Type) where
  marshal : α → Except Err GoString
  unmarshal : GoString → Except Err α

section Token

variable {α : Type} (json : JSON α)

/-- `EncodePageToken` -/
def encodePageToken (v : α) : Except Err (Option GoString) := do
  let jsonBytes ← json.marshal v
  return some (Base64.encode jsonBytes)

/-- `DecodePageToken`: no token and an empty one are the same. -/
def decodePageToken (token : Option GoString) : Except Err (Option α) :=
  match token with
  | none => .ok none
  | some token =>
    if token = [] then .ok none
    else
      match Base64.decode token with
      | none => .error (.other "illegal base64 data")
      | some jsonBytes => do
          let v ← json.unmarshal jsonBytes
          return some v

/-- The library reads back what it has written of the value. -/
def JSON.RoundTrips (v : α) : Prop :=
  ∃ b, json.marshal v = .ok b ∧ b ≠ [] ∧ json.unmarshal b = .ok v

variable {json} in
theorem decodePageToken_encode {v : α} (h : json.RoundTrips v) :
    ∃ token, encodePageToken json v = .ok (some token) ∧
      decodePageToken json (some token) = .ok (some v) := by
  obtain ⟨b, hmarshal, hne, hunmarshal⟩ := h
  refine ⟨Base64.encode b, ?_, ?_⟩
  · rw [encodePageToken, hmarshal]
    rfl
  · simp only [decodePageToken, Base64.encode_ne_nil hne, Base64.decode_encode, if_false,
      hunmarshal]
    rfl

end Token

end Microjet.Types
