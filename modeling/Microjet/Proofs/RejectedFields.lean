import Microjet.Httpx.Validation
import Mathlib.Data.Finset.Card

/-!
# Rejected fields

The map that `ValidationError` returns is keyed by the last name of a field's path. It has an
entry for every rejected field exactly if no two of them end in the same name.
-/

namespace Microjet.Httpx

variable {isPrint : Nat → Bool} {verrs : List FieldError} {k : GoString}

/-- The field was rejected. -/
def Rejected (verrs : List FieldError) (p : List GoString × GoString) : Prop :=
  ∃ fe ∈ verrs, fe.path = p

/-- One entry for each rejected field, under a key and with a reason of its own. -/
structure NamesEvery (isPrint : Nat → Bool) (verrs : List FieldError) (fields : GoMap GoString)
    (key : List GoString × GoString → GoString) : Prop where
  distinct : ∀ p p', Rejected verrs p → Rejected verrs p' → key p = key p' → p = p'
  covers : ∀ k, (fields.get k).isSome ↔ ∃ p, Rejected verrs p ∧ key p = k
  reason : ∀ p, Rejected verrs p →
    ∃ fe ∈ verrs, fe.path = p ∧ fields.get (key p) = some (validationMessage isPrint fe)

/-- No two rejected fields end in the same name. -/
def LeavesDistinct (verrs : List FieldError) : Prop :=
  ∀ fe ∈ verrs, ∀ fe' ∈ verrs, fe.field = fe'.field → fe.path = fe'.path

theorem get_foldl_setField (isPrint : Nat → Bool) (verrs : List FieldError)
    (fields : GoMap GoString) (k : GoString) :
    (∃ fe ∈ verrs, fe.field = k ∧
        (verrs.foldl (setField isPrint) fields).get k = some (validationMessage isPrint fe)) ∨
      (∀ fe ∈ verrs, fe.field ≠ k) ∧
        (verrs.foldl (setField isPrint) fields).get k = fields.get k := by
  induction verrs generalizing fields with
  | nil => exact .inr ⟨fun fe hfe => absurd hfe List.not_mem_nil, rfl⟩
  | cons fe verrs ih =>
    rw [List.foldl_cons]
    rcases ih (setField isPrint fields fe) with ⟨fe', hfe', hk, hget⟩ | ⟨hne, hget⟩
    · exact .inl ⟨fe', List.mem_cons_of_mem fe hfe', hk, hget⟩
    · rw [setField, GoMap.get_insert] at hget
      by_cases hk : fe.field = k
      · rw [if_pos hk.symm] at hget
        exact .inl ⟨fe, List.mem_cons_self, hk, hget⟩
      · rw [if_neg (Ne.symm hk)] at hget
        exact .inr ⟨List.forall_mem_cons.mpr ⟨hk, hne⟩, hget⟩

theorem get_fieldReasons (isPrint : Nat → Bool) (verrs : List FieldError) (k : GoString) :
    (∃ fe ∈ verrs, fe.field = k ∧
        (fieldReasons isPrint verrs).get k = some (validationMessage isPrint fe)) ∨
      (∀ fe ∈ verrs, fe.field ≠ k) ∧ (fieldReasons isPrint verrs).get k = none :=
  get_foldl_setField isPrint verrs GoMap.empty k

theorem isSome_get_fieldReasons :
    ((fieldReasons isPrint verrs).get k).isSome ↔ ∃ p, Rejected verrs p ∧ p.2 = k := by
  rcases get_fieldReasons isPrint verrs k with ⟨fe, hfe, hk, hget⟩ | ⟨hne, hget⟩
  · rw [hget]
    exact ⟨fun _ => ⟨fe.path, ⟨fe, hfe, rfl⟩, hk⟩, fun _ => rfl⟩
  · rw [hget]
    refine ⟨fun h => absurd h Bool.false_ne_true, ?_⟩
    rintro ⟨_, ⟨fe, hfe, rfl⟩, hk⟩
    exact absurd hk (hne fe hfe)

theorem namesEvery_of_leavesDistinct (h : LeavesDistinct verrs) :
    NamesEvery isPrint verrs (fieldReasons isPrint verrs) Prod.snd where
  distinct := by
    rintro _ _ ⟨fe, hfe, rfl⟩ ⟨fe', hfe', rfl⟩ hk
    exact h fe hfe fe' hfe' hk
  covers _ := isSome_get_fieldReasons
  reason := by
    rintro _ ⟨fe, hfe, rfl⟩
    rcases get_fieldReasons isPrint verrs fe.field with
      ⟨fe', hfe', hk, hget⟩ | ⟨hne, -⟩
    · exact ⟨fe', hfe', h fe' hfe' fe hfe hk, hget⟩
    · exact absurd rfl (hne fe hfe)

theorem leavesDistinct_of_namesEvery {key : List GoString × GoString → GoString}
    (h : NamesEvery isPrint verrs (fieldReasons isPrint verrs) key) : LeavesDistinct verrs := by
  let paths := (verrs.map FieldError.path).toFinset
  have hpaths (p) : p ∈ paths ↔ Rejected verrs p := by
    rw [List.mem_toFinset, List.mem_map]
    rfl
  have hkeys : paths.image key = paths.image Prod.snd := by
    ext k
    rw [Finset.mem_image, Finset.mem_image]
    simp only [hpaths]
    rw [← h.covers k, isSome_get_fieldReasons]
  -- as many keys as paths: the last names, which are the same keys, are as many too
  have hcard : (paths.image key).card = paths.card :=
    Finset.card_image_of_injOn fun p hp p' hp' =>
      h.distinct p p' ((hpaths p).mp hp) ((hpaths p').mp hp')
  rw [hkeys, Finset.card_image_iff] at hcard
  intro fe hfe fe' hfe' hk
  exact hcard ((hpaths _).mpr ⟨fe, hfe, rfl⟩) ((hpaths _).mpr ⟨fe', hfe', rfl⟩) hk

/-- The map names every rejected field with its own reason exactly if no two of them end in the
same name. -/
theorem validationError_names_every_iff (isPrint : Nat → Bool) (verrs : List FieldError)
    (unmarshalType : Option UnmarshalTypeError) (text : GoString) :
    ∃ fields, validationError isPrint ⟨some verrs, unmarshalType, text⟩ =
        badRequestWith (bytes "Validation failed") [("fields", fields)] ∧
      ((∃ key, NamesEvery isPrint verrs fields key) ↔ LeavesDistinct verrs) := by
  refine ⟨fieldReasons isPrint verrs, rfl, ?_, fun h => ⟨Prod.snd, ?_⟩⟩
  · rintro ⟨key, h⟩
    exact leavesDistinct_of_namesEvery h
  · exact namesEvery_of_leavesDistinct h

/-- The names of two items of an order: both are missing, and the map has one entry. -/
theorem second_item_hidden :
    let required (item : String) : FieldError :=
      ⟨[bytes "Order", bytes item], bytes "name", bytes "required", []⟩
    let verrs := [required "items[0]", required "items[1]"]
    (verrs.map FieldError.path).Nodup ∧
      (validationError (fun _ => true) ⟨some verrs, none, []⟩).params.map (fun p =>
        (p.1, p.2.entries)) = [("fields", [(bytes "name", bytes "is required")])] ∧
      ¬ ∃ key, NamesEvery (fun _ => true) verrs (fieldReasons (fun _ => true) verrs) key := by
  refine ⟨by decide, by decide, ?_⟩
  rintro ⟨key, h⟩
  have := leavesDistinct_of_namesEvery h _ List.mem_cons_self _
    (List.mem_cons_of_mem _ List.mem_cons_self) rfl
  exact absurd this (by decide)

end Microjet.Httpx
