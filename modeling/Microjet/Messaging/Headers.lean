import Microjet.Core.Errorx

/-!
# Messages and their headers (`messaging/dto.go`, `messaging/headers.go`)
-/

namespace Microjet.Messaging

/-- `[]byte` -/
abbrev Bytes := List UInt8

/-- `map[string][]string`; a key is looked up by its first entry. -/
abbrev Headers := List (String × List String)

/-- `Message` -/
structure Message where
  subject : String
  data : Bytes
  headers : Headers := []
  deriving DecidableEq, Repr

/-- `CorrelationIDHeader` -/
def correlationIDHeader : String := "X-Request-ID"

/-- The first value under `key`, or `""` when the header is absent or empty. -/
def headerValue (headers : Headers) (key : String) : String :=
  match headers.lookup key with
  | some (v :: _) => v
  | _ => ""

/-- `SetHeader` replaces the entry, so no key is there twice. -/
def setHeader (headers : Headers) (key value : String) : Headers :=
  (key, [value]) :: headers.filter (fun kv => kv.1 != key)

/-- `CorrelationID` -/
def correlationID (headers : Headers) : String :=
  headerValue headers correlationIDHeader

/-- `SetCorrelationID` -/
def setCorrelationID (headers : Headers) (id : String) : Headers :=
  setHeader headers correlationIDHeader id

variable {key k : String}

theorem lookup_filter_ne (headers : Headers) (h : k ≠ key) :
    (headers.filter (fun kv => kv.1 != key)).lookup k = headers.lookup k := by
  induction headers with
  | nil => rfl
  | cons kv rest ih =>
    obtain ⟨k', vs⟩ := kv
    by_cases hk : k' = key
    · subst hk
      rw [List.filter_cons_of_neg (by simp), ih, List.lookup_cons]
      rw [show (k == k') = false by simpa using h]
    · rw [List.filter_cons_of_pos (by simpa using hk), List.lookup_cons,
        List.lookup_cons, ih]

@[simp] theorem lookup_setHeader_self (headers : Headers) (key value : String) :
    (setHeader headers key value).lookup key = some [value] := by
  simp [setHeader]

theorem lookup_setHeader_ne (headers : Headers) (value : String) (h : k ≠ key) :
    (setHeader headers key value).lookup k = headers.lookup k := by
  rw [setHeader, List.lookup_cons, show (k == key) = false by simpa using h]
  exact lookup_filter_ne headers h

@[simp] theorem headerValue_setHeader_self (headers : Headers)
    (key value : String) :
    headerValue (setHeader headers key value) key = value := by
  rw [headerValue, lookup_setHeader_self]

theorem headerValue_setHeader_ne (headers : Headers) (value : String) (h : k ≠ key) :
    headerValue (setHeader headers key value) k = headerValue headers k := by
  rw [headerValue, headerValue, lookup_setHeader_ne headers value h]

end Microjet.Messaging
