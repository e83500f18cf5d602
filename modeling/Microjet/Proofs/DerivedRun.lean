import Microjet.Dynamo.Write
import Microjet.Lib.Assign
import Microjet.Proofs.KeyDistinct
import Microjet.Proofs.StructMeta

/-!
# Computing the derived attributes

`applyDerived` is a list of assignments in the order of the declaration, each to a field of
its own (`applyDerived_eq_ok`). A field keeps its type and its place in the struct.
-/

namespace Microjet.Dynamo

open Errorx

/-! ## One field -/

section Field

variable {ν : Type} {refl : Reflect ν} {text : TextMethods ν} {v v' : Nat → Handle ν}
  {fm : FieldMeta}

/-- What the assignment of a field computes. -/
def derivedValue (refl : Reflect ν) (text : TextMethods ν) (fm : FieldMeta)
    (v : Nat → Handle ν) : Option (Handle ν) :=
  (fm.encode text v >>= (v fm.structIndex).setString refl).toOption

theorem derivedValue_eq_some {h : Handle ν} :
    derivedValue refl text fm v = some h ↔
      ∃ s, fm.encode text v = .ok s ∧ (v fm.structIndex).setString refl s = .ok h := by
  rw [derivedValue, Out.toOption_eq_some, Out.bind_eq_ok]

theorem setString_congr {h h' : Handle ν} (hacc : h.accessible = h'.accessible)
    (htype : h.value.type = h'.value.type) (s : GoString) :
    h.setString refl s = h'.setString refl s := by
  obtain ⟨acc, value⟩ := h
  obtain ⟨acc', value'⟩ := h'
  cases hacc
  cases value with
  | string =>
    cases value' with
    | string => rfl
    | uuid => cases htype
    | other => cases htype
  | uuid =>
    cases value' with
    | string => cases htype
    | uuid => rfl
    | other => cases htype
  | other d x =>
    cases value' with
    | string => cases htype
    | uuid => cases htype
    | other d' x' =>
      cases htype
      rfl

theorem setString_eq_ok {h h' : Handle ν} {s : GoString} (hs : h.setString refl s = .ok h') :
    h'.accessible = h.accessible ∧ h'.value.type = h.value.type ∧
      (h.value.type = .string → h'.value = .string s) := by
  unfold Handle.setString at hs
  split at hs
  · cases hs
  · obtain ⟨acc, value⟩ := h
    cases value with
    | string x =>
      cases hs
      exact ⟨rfl, rfl, fun _ => rfl⟩
    | uuid u => cases hs
    | other d x =>
      dsimp only at hs
      split at hs
      · cases hs
        exact ⟨rfl, rfl, nofun⟩
      · cases hs

theorem deriveField_eq_ok (hacc : (v fm.structIndex).accessible = true) :
    deriveField refl text 0 v fm = .ok v' ↔
      ∃ h, derivedValue refl text fm v = some h ∧ v' = Function.update v fm.structIndex h := by
  have hunfold : deriveField refl text 0 v fm =
      (fm.encode text v >>= fun s => (v fm.structIndex).setString refl s >>= fun h =>
        .ok (Function.update v fm.structIndex h)) := by
    simp only [deriveField, fieldOf, ne_eq, not_true_eq_false, if_false, Out.ok_bind, hacc,
      Bool.not_true, Bool.false_eq_true]
    rfl
  rw [hunfold, Out.bind_eq_ok]
  constructor
  · rintro ⟨s, hs, h⟩
    obtain ⟨h', hh', h⟩ := Out.bind_eq_ok.mp h
    cases h
    exact ⟨h', derivedValue_eq_some.mpr ⟨s, hs, hh'⟩, rfl⟩
  · rintro ⟨h, hh, rfl⟩
    obtain ⟨s, hs, hset⟩ := derivedValue_eq_some.mp hh
    exact ⟨s, hs, by rw [hset]; rfl⟩

end Field

/-! ## The loop -/

section Loop

variable {ν : Type} {refl : Reflect ν} {text : TextMethods ν}

variable {fms : List FieldMeta}

theorem accessible_update {fm : FieldMeta} {v : Nat → Handle ν}
    {h : Handle ν} (hacc : ∀ fm' ∈ fm :: fms, (v fm'.structIndex).accessible = true)
    (hh : derivedValue refl text fm v = some h) :
    ∀ fm' ∈ fms, (Function.update v fm.structIndex h fm'.structIndex).accessible = true := by
  intro fm' hfm'
  obtain ⟨s, -, hset⟩ := derivedValue_eq_some.mp hh
  by_cases hi : fm'.structIndex = fm.structIndex
  · rw [hi, Function.update_self, (setString_eq_ok hset).1]
    exact hacc fm List.mem_cons_self
  · rw [Function.update_of_ne hi]
    exact hacc fm' (List.mem_cons_of_mem fm hfm')

variable {v v' : Nat → Handle ν}

theorem applyDerived_eq_ok (hacc : ∀ fm ∈ fms, (v fm.structIndex).accessible = true) :
    applyDerived refl text 0 fms v = (v', .ok ()) ↔
      Assign.run FieldMeta.structIndex (derivedValue refl text) fms v = some v' := by
  induction fms generalizing v with
  | nil =>
    simp only [applyDerived, Assign.run, Prod.mk.injEq, and_true, Option.some.injEq]
  | cons fm fms ih =>
    rw [applyDerived, Assign.run_cons]
    have hfm : ∀ v₁, deriveField refl text 0 v fm = .ok v₁ ↔ _ := fun v₁ =>
      deriveField_eq_ok (hacc fm List.mem_cons_self)
    constructor
    · intro h
      split at h
      · next v₁ hv₁ =>
          obtain ⟨x, hx, rfl⟩ := (hfm v₁).mp hv₁
          exact ⟨x, hx, (ih (accessible_update hacc hx)).mp h⟩
      · cases h
      · cases h
    · rintro ⟨x, hx, h⟩
      rw [(hfm _).mpr ⟨x, hx, rfl⟩]
      exact (ih (accessible_update hacc hx)).mpr h

theorem applyDerived_pointers {pointers : Nat} (hp : pointers ≠ 0)
    {v : Nat → Handle ν} (h : (applyDerived refl text pointers fms v).2 ≠ .panic) : fms = [] := by
  cases fms with
  | nil => rfl
  | cons fm fms =>
    have hpanic : deriveField refl text pointers v fm = .panic := by
      simp only [deriveField, fieldOf, ne_eq, hp, not_false_eq_true, if_true, Out.panic_bind]
    rw [applyDerived, hpanic] at h
    exact absurd rfl h

theorem encodeSegments_congr {segs : List KeySegment} (h : ∀ i ∈ refs segs, v' i = v i) :
    encodeSegments text v' segs = encodeSegments text v segs := by
  induction segs with
  | nil => rfl
  | cons seg segs ih =>
    cases seg with
    | literal s =>
      rw [encodeSegments, encodeSegments, ih h]
    | field i =>
      rw [refs_field] at h
      rw [encodeSegments, encodeSegments, h i List.mem_cons_self,
        ih fun j hj => h j (List.mem_cons_of_mem i hj)]

end Loop

end Microjet.Dynamo
