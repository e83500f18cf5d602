import Microjet.Middleware.Context

/-!
# The text of a key

What is hashed for a request can be read in one way only, because of the lengths. The default
scope needs none: a tenant is written in 36 bytes that do not begin with a slash.
-/

namespace Microjet.Middleware

open Dynamo

theorem slot_text_inj {s s' : Slot} (heq : s.text = s'.text) : s = s' := by
  have hparts := Netstring.frames_inj decimal (by rfl) heq
  obtain ⟨scope, method, uri, key⟩ := s
  obtain ⟨scope', method', uri', key'⟩ := s'
  simpa using hparts

section Scope

theorem hexByte_ne_slash {n : Nat} (hn : n < 16) : hexByte n ≠ 47 := by
  have hall : ∀ n : Fin 16, hexByte n ≠ 47 := by decide
  exact hall ⟨n, hn⟩

theorem uuid_ne_slash (id : UUID) (subject subject' : GoString) :
    id.string ++ bytes "/" ++ subject ≠ bytes "/" ++ subject' := by
  intro h
  obtain ⟨b, bs, hbytes⟩ : ∃ b bs, id.bytes = b :: bs :=
    List.exists_cons_of_length_pos (by rw [id.length_eq]; decide)
  have hhead : (id.string ++ bytes "/" ++ subject).head? = some (hexByte (b.toNat / 16)) := by
    simp [UUID.string, hbytes, hexText, Hex.encode]
  rw [h] at hhead
  have hb := b.toNat_lt
  exact hexByte_ne_slash (by omega) (Option.some.inj hhead).symm

theorem scope_eq_iff (c c' : Caller) :
    defaultIdempotencyScope c = defaultIdempotencyScope c' ↔
      c.tenantID = c'.tenantID ∧ c.subject.getD [] = c'.subject.getD [] := by
  obtain ⟨tenantID, subject⟩ := c
  obtain ⟨tenantID', subject'⟩ := c'
  cases tenantID with
  | none =>
    cases tenantID' with
    | none => simp [defaultIdempotencyScope]
    | some id' => simpa [defaultIdempotencyScope] using (uuid_ne_slash id' _ _).symm
  | some id =>
    cases tenantID' with
    | none => simpa [defaultIdempotencyScope] using uuid_ne_slash id _ _
    | some id' =>
      refine ⟨fun h => ?_, fun h => ?_⟩
      · -- both are as long, so that the slashes stand in one place
        obtain ⟨hid, hrest⟩ := List.append_inj
          (show id.string ++ (bytes "/" ++ _) = id'.string ++ (bytes "/" ++ _) by
            simpa [defaultIdempotencyScope] using h)
          (by rw [UUID.length_string, UUID.length_string])
        exact ⟨congrArg some (UUID.string_inj hid), List.append_cancel_left hrest⟩
      · obtain ⟨hid, hsubject⟩ := h
        cases hid
        exact congrArg (id.string ++ bytes "/" ++ ·) hsubject

end Scope

/-- The parts can be read from what is hashed, and tenant and subject from the default scope. -/
theorem slot_scope_injective :
    (∀ s s' : Slot, s.text = s'.text ↔ s = s') ∧
      ∀ c c' : Context,
        defaultIdempotencyScope c.caller = defaultIdempotencyScope c'.caller ↔
          (getTenantID c).toOption = (getTenantID c').toOption ∧
            c.subject.getD [] = c'.subject.getD [] :=
  ⟨fun _ _ => ⟨slot_text_inj, fun h => congrArg Slot.text h⟩,
    fun c c' => scope_eq_iff c.caller c'.caller⟩

end Microjet.Middleware
