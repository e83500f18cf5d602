import Mathlib.Data.List.Forall2
import Mathlib.Data.List.Nodup

/-!
# Lists of named values

A later entry replaces the earlier ones of its name; without those that are replaced the order
does not matter (`lookupLast_eq_some`).
-/

namespace Assoc

variable {κ α β : Type} [DecidableEq κ]

/-- Of the entries with one name the last one. -/
def keepLast : List (κ × α) → List (κ × α)
  | [] => []
  | (k, v) :: ms => if ms.any (·.1 = k) then keepLast ms else (k, v) :: keepLast ms

/-- The value that counts. -/
def lookupLast (key : κ) : List (κ × α) → Option α
  | [] => none
  | (k, v) :: ms => (lookupLast key ms).or (if k = key then some v else none)

variable {ms : List (κ × α)}

theorem lookupLast_isSome {key : κ} :
    (lookupLast key ms).isSome ↔ ∃ v, (key, v) ∈ ms := by
  induction ms with
  | nil => simp [lookupLast]
  | cons m ms ih =>
    obtain ⟨k, v⟩ := m
    rw [lookupLast, Option.isSome_or, Bool.or_eq_true, ih]
    by_cases hk : k = key
    · simp [hk]
    · simp [hk, Ne.symm hk]

theorem mem_of_lookupLast {key : κ} {v : α} (h : lookupLast key ms = some v) : (key, v) ∈ ms := by
  induction ms with
  | nil => simp [lookupLast] at h
  | cons m ms ih =>
    obtain ⟨k, v'⟩ := m
    rw [lookupLast, Option.or_eq_some_iff] at h
    rcases h with h | ⟨-, h⟩
    · exact List.mem_cons_of_mem _ (ih h)
    · split at h
      · next hk =>
        rw [hk, Option.some.inj h]
        exact List.mem_cons_self
      · cases h

theorem lookupLast_eq_some {key : κ} {v : α}
    (h : (ms.map Prod.fst).Nodup) : lookupLast key ms = some v ↔ (key, v) ∈ ms := by
  refine ⟨mem_of_lookupLast, fun hmem => ?_⟩
  obtain ⟨v', hv'⟩ := Option.isSome_iff_exists.mp (lookupLast_isSome.mpr ⟨v, hmem⟩)
  have heq := List.inj_on_of_nodup_map h hmem (mem_of_lookupLast hv') rfl
  rw [hv', (Prod.mk.inj heq).2]

theorem lookupLast_keepLast (key : κ) (ms : List (κ × α)) :
    lookupLast key (keepLast ms) = lookupLast key ms := by
  induction ms with
  | nil => rfl
  | cons m ms ih =>
    obtain ⟨k, v⟩ := m
    rw [keepLast, lookupLast]
    split
    · next hlater =>
      rw [ih]
      by_cases hk : k = key
      · -- a later member has the name
        have hsome : (lookupLast key ms).isSome := by
          rw [lookupLast_isSome]
          simpa [hk] using hlater
        obtain ⟨w, hw⟩ := Option.isSome_iff_exists.mp hsome
        rw [hw, Option.some_or]
      · rw [if_neg hk, Option.or_none]
    · rw [lookupLast, ih]

theorem nodup_keepLast (ms : List (κ × α)) : ((keepLast ms).map Prod.fst).Nodup := by
  induction ms with
  | nil => exact List.nodup_nil
  | cons m ms ih =>
    obtain ⟨k, v⟩ := m
    rw [keepLast]
    split
    · exact ih
    · next hlater =>
      rw [List.map_cons, List.nodup_cons]
      refine ⟨fun hmem => hlater ?_, ih⟩
      obtain ⟨⟨k', w⟩, hw, rfl⟩ := List.mem_map.mp hmem
      have hsome : (lookupLast k' (keepLast ms)).isSome := lookupLast_isSome.mpr ⟨w, hw⟩
      rw [lookupLast_keepLast, lookupLast_isSome] at hsome
      simpa using hsome

/-- The same names, with values computed from those of the first list. -/
def Renders (f : κ → α → Option β) (ms : List (κ × α)) (vs : List (κ × β)) : Prop :=
  List.Forall₂ (fun m p => p.1 = m.1 ∧ f m.1 m.2 = some p.2) ms vs

variable {f : κ → α → Option β} {ms : List (κ × α)} {vs : List (κ × β)}

omit [DecidableEq κ] in
theorem renders_nil : Renders f [] vs ↔ some [] = some vs := by
  rw [Renders, List.forall₂_nil_left_iff, Option.some.injEq, eq_comm]

omit [DecidableEq κ] in
theorem renders_cons {k : κ} {a : α} :
    Renders f ((k, a) :: ms) vs ↔
      ∃ v, f k a = some v ∧ ∃ rest, Renders f ms rest ∧ (k, v) :: rest = vs := by
  rw [Renders, List.forall₂_cons_left_iff]
  constructor
  · rintro ⟨⟨k', v⟩, rest, ⟨rfl, hv⟩, hrest, rfl⟩
    exact ⟨v, hv, rest, hrest, rfl⟩
  · rintro ⟨v, hv, rest, hrest, rfl⟩
    exact ⟨(k, v), rest, ⟨rfl, hv⟩, hrest, rfl⟩

omit [DecidableEq κ] in
theorem Renders.of_mem (h : Renders f ms vs) {m : κ × α} (hm : m ∈ ms) :
    ∃ v, f m.1 m.2 = some v := by
  induction h with
  | nil => cases hm
  | cons hp _ ih =>
    rcases List.mem_cons.mp hm with rfl | hm
    · exact ⟨_, hp.2⟩
    · exact ih hm

omit [DecidableEq κ] in
theorem exists_renders (h : ∀ m ∈ ms, ∃ v, f m.1 m.2 = some v) : ∃ vs, Renders f ms vs := by
  induction ms with
  | nil => exact ⟨[], .nil⟩
  | cons m ms ih =>
    obtain ⟨v, hv⟩ := h m List.mem_cons_self
    obtain ⟨vs, hvs⟩ := ih fun m' hm' => h m' (List.mem_cons_of_mem _ hm')
    exact ⟨(m.1, v) :: vs, .cons ⟨rfl, hv⟩ hvs⟩

theorem Renders.lookupLast (h : Renders f ms vs) (key : κ) :
    lookupLast key vs = (lookupLast key ms).bind (f key) := by
  induction h with
  | nil => rfl
  | @cons m p ms vs hmp htail ih =>
    obtain ⟨k, v⟩ := m
    obtain ⟨k', v'⟩ := p
    obtain ⟨rfl, hv⟩ := hmp
    rw [Assoc.lookupLast, Assoc.lookupLast, ih]
    cases hlast : Assoc.lookupLast key ms with
    | none =>
      by_cases hk : k' = key
      · subst hk
        simpa using hv.symm
      · simp [hk]
    | some w =>
      obtain ⟨w', hw'⟩ := Renders.of_mem htail (mem_of_lookupLast hlast)
      dsimp only at hw'
      simp [hw']

end Assoc
