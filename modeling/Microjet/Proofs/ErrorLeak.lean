import Microjet.Middleware.Error
import Microjet.Grpcx.Error

/-!
# What a client learns from an error

With debug off, two errors with one `View` get one reply, on either transport, whatever is
wrapped around the `*errorx.Error` and whatever it wraps. Over gRPC an error without one may
carry a status of its own or be about a context, which `Carries` leaves out.
-/

namespace Microjet.Errorx.ErrorTree

open Middleware Grpcx

variable {α : Type}

/-- The five types for clients. -/
def clientTypes : List String :=
  [ErrorType.notFound.text, ErrorType.badRequest.text, ErrorType.business.text,
    ErrorType.unauthorized.text, ErrorType.forbidden.text]

/-- Nothing, or the fields of an error for clients. -/
inductive View (α : Type) where
  | nothing
  | fields (e : Fields α)

/-- What of an error the reply is made from. -/
def view (err : ErrorTree α) : View α :=
  match err.asErrorx with
  | none => .nothing
  | some v => if v.fields.type ∈ clientTypes then .fields v.fields else .nothing

/-- The error has a gRPC status of its own, or is about a context. -/
def Carries (sprint : α → String) (err : ErrorTree α) : Prop :=
  (fromError sprint err).isSome = true ∨ ∃ c, err.isContext c = true

section

variable (sprint : α → String)

/-- The reply over HTTP. -/
def View.reply : View α → ErrorReply α
  | .nothing => ⟨500, internalServerError⟩
  | .fields e => replyTyped sprint false ⟨e, none⟩

/-- The reply over gRPC. -/
def View.status : View α → Status
  | .nothing => ⟨Codes.internal, "internal error"⟩
  | .fields e => ⟨codeForType e.type, e.message⟩

variable {sprint} {v : Found α} {err : ErrorTree α}

variable {type : String}

theorem not_clientTypes (h : type ∉ clientTypes) :
    type ≠ ErrorType.notFound.text ∧ type ≠ ErrorType.badRequest.text ∧
      type ≠ ErrorType.business.text ∧ type ≠ ErrorType.unauthorized.text ∧
      type ≠ ErrorType.forbidden.text := by
  simpa [clientTypes, not_or] using h

theorem replyTyped_hidden (h : v.fields.type ∉ clientTypes) :
    replyTyped sprint false v = ⟨500, internalServerError⟩ := by
  obtain ⟨hnf, hbr, hbus, hun, hforb⟩ := not_clientTypes h
  simp only [replyTyped, if_neg hnf, if_neg hbr, if_neg hbus, if_neg hun, if_neg hforb]
  rfl

theorem codeForType_hidden (h : type ∉ clientTypes) :
    codeForType type = Codes.internal := by
  obtain ⟨hnf, hbr, hbus, hun, hforb⟩ := not_clientTypes h
  simp only [codeForType, if_neg hnf, if_neg hbr, if_neg hbus, if_neg hun, if_neg hforb]

theorem codeForType_client (h : type ∈ clientTypes) :
    codeForType type ≠ Codes.internal := by
  simp only [clientTypes, List.mem_cons, List.not_mem_nil, or_false] at h
  rcases h with rfl | rfl | rfl | rfl | rfl <;> decide

theorem replyTo_eq (err : ErrorTree α) : replyTo sprint false err = err.view.reply sprint := by
  rw [replyTo, view]
  cases err.asErrorx with
  | none => rfl
  | some v =>
    by_cases hclient : v.fields.type ∈ clientTypes
    · simp only [if_pos hclient]
      rfl
    · simp only [if_neg hclient]
      exact replyTyped_hidden hclient

theorem translateError_eq (h : err.view = .nothing → ¬err.Carries sprint) :
    translateError sprint false (some err) = some (.status err.view.status) := by
  rw [translateError]
  rw [view] at h ⊢
  cases hfound : err.asErrorx with
  | none =>
    rw [hfound] at h
    have hcarries := h rfl
    have hstatus : (fromError sprint err).isSome = false :=
      Bool.eq_false_iff.mpr fun hs => hcarries (.inl hs)
    have hcontext : ∀ c, err.isContext c = false :=
      fun c => Bool.eq_false_iff.mpr fun hc => hcarries (.inr ⟨c, hc⟩)
    simp only [hstatus, hcontext]
    rfl
  | some v =>
    by_cases hclient : v.fields.type ∈ clientTypes
    · have hcode := codeForType_client hclient
      simp only [if_pos hclient, hcode, false_and, if_false]
      rfl
    · have hcode := codeForType_hidden hclient
      simp only [if_neg hclient, hcode, true_and, if_true]
      rfl

end

/-- With debug off, errors without an `*errorx.Error` for a client get one HTTP reply, and one
gRPC status unless one of them carries its own. Those in which one is found get one reply on each
transport, if its fields are the same. -/
theorem production_hides_causes (sprint : α → String) (err₁ err₂ : ErrorTree α)
    (errs₁ errs₂ : List (ErrorTree α)) :
    ((∀ v, err₁.asErrorx = some v → v.fields.type ∉ clientTypes) →
      (∀ v, err₂.asErrorx = some v → v.fields.type ∉ clientTypes) →
      errorHandler sprint false (errs₁ ++ [err₁]) = errorHandler sprint false (errs₂ ++ [err₂]) ∧
      (¬err₁.Carries sprint → ¬err₂.Carries sprint →
        translateError sprint false (some err₁) = translateError sprint false (some err₂))) ∧
    ∀ v₁ v₂, err₁.asErrorx = some v₁ → err₂.asErrorx = some v₂ → v₁.fields = v₂.fields →
      v₁.fields.type ∈ clientTypes →
      errorHandler sprint false (errs₁ ++ [err₁]) = errorHandler sprint false (errs₂ ++ [err₂]) ∧
      translateError sprint false (some err₁) = translateError sprint false (some err₂) := by
  have hhttp : err₁.view = err₂.view →
      errorHandler sprint false (errs₁ ++ [err₁]) =
        errorHandler sprint false (errs₂ ++ [err₂]) := by
    intro hview
    rw [errorHandler, errorHandler, List.getLast?_concat, List.getLast?_concat, Option.map_some,
      Option.map_some, replyTo_eq, replyTo_eq, hview]
  constructor
  · intro h₁ h₂
    have hnothing : ∀ err : ErrorTree α,
        (∀ v, err.asErrorx = some v → v.fields.type ∉ clientTypes) → err.view = .nothing := by
      intro err h
      rw [view]
      cases hfound : err.asErrorx with
      | none => rfl
      | some v => exact if_neg (h v hfound)
    have hview : err₁.view = err₂.view := (hnothing err₁ h₁).trans (hnothing err₂ h₂).symm
    refine ⟨hhttp hview, fun hc₁ hc₂ => ?_⟩
    rw [translateError_eq fun _ => hc₁, translateError_eq fun _ => hc₂, hview]
  · intro v₁ v₂ h₁ h₂ hfields hclient
    have hshown : ∀ (err : ErrorTree α) v, err.asErrorx = some v → v.fields.type ∈ clientTypes →
        err.view = .fields v.fields := by
      intro err v h hclient
      rw [view, h]
      exact if_pos hclient
    have hview₁ := hshown err₁ v₁ h₁ hclient
    have hview₂ := hshown err₂ v₂ h₂ (hfields ▸ hclient)
    have hview : err₁.view = err₂.view := by rw [hview₁, hview₂, hfields]
    refine ⟨hhttp hview, ?_⟩
    rw [translateError_eq (by rw [hview₁]; nofun), translateError_eq (by rw [hview₂]; nofun), hview]

theorem production_hides_password :
    let secret : ErrorTree Unit := .other ⟨"pq: password authentication failed", none, none⟩ []
    let internal : ErrorTree Unit := .other ⟨"loading the user", none, none⟩
      [.caused ⟨"INTERNAL", "users", "query failed", [], 0⟩ secret]
    let missing : Fields Unit := ⟨"NOT_FOUND", "users", "no such user", [], 0⟩
    (errorHandler (fun _ => "") false [internal] = errorHandler (fun _ => "") false [secret] ∧
      translateError (fun _ => "") false (some internal) =
        translateError (fun _ => "") false (some secret)) ∧
    translateError (fun _ => "") false (some (.caused missing secret)) =
      translateError (fun _ => "") false (some (.errorx missing)) := by
  intro secret internal missing
  have hsecret : ¬secret.Carries (fun _ => "") := by
    rintro (h | ⟨c, h⟩)
    · cases h
    · cases h
  have hinternal : ¬internal.Carries (fun _ => "") := by
    rintro (h | ⟨c, h⟩)
    · cases h
    · cases h
  refine ⟨?_, ?_⟩
  · obtain ⟨hhttp, hgrpc⟩ := (production_hides_causes (fun _ => "") internal secret [] []).1
      (by rintro v h; cases h; decide) nofun
    exact ⟨hhttp, hgrpc hinternal hsecret⟩
  · exact ((production_hides_causes (fun _ => "") (.caused missing secret) (.errorx missing) []
      []).2 _ _ rfl rfl rfl (by decide)).2

end Microjet.Errorx.ErrorTree
