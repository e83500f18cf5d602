import Mathlib.Data.List.Basic
import Mathlib.Data.Nat.Find

/-!
# Searching for a separator

The first occurrence of `sep` in `v ++ sep ++ rest` is at the end of `v` exactly if `v` is
clear, whatever follows (`indexOf_append`). A text splits at a separator in one way only, among
the splits whose left part is clear (`Clear.split`).
-/

namespace Search

variable {α : Type}

/-- `sep` does not occur in `v ++ sep` before the end of `v`. -/
def Clear (v sep : List α) : Prop :=
  ∀ j, j < v.length → ¬ sep <+: (v ++ sep).drop j

/-- An occurrence that starts inside `v` ends before the separator does. -/
theorem prefix_drop_append_iff {v sep : List α} (rest : List α) {j : Nat}
    (hj : j ≤ v.length) :
    sep <+: (v ++ (sep ++ rest)).drop j ↔ sep <+: (v ++ sep).drop j := by
  rw [← List.append_assoc, List.drop_append_of_le_length (by rw [List.length_append]; omega)]
  constructor
  · intro h
    refine List.prefix_of_prefix_length_le h (List.prefix_append _ _) ?_
    rw [List.length_drop, List.length_append]
    omega
  · intro h
    exact h.trans (List.prefix_append _ _)

variable [DecidableEq α]

instance (v sep : List α) : Decidable (Clear v sep) :=
  inferInstanceAs (Decidable (∀ j, j < v.length → _))

/-- The position of the first occurrence of `pat`, if there is one. -/
def indexOf (pat : List α) : List α → Option Nat
  | [] => if pat = [] then some 0 else none
  | a :: s =>
    if pat.isPrefixOf (a :: s) then some 0 else (indexOf pat s).map (· + 1)

theorem indexOf_eq_some_iff {pat : List α} : ∀ {s : List α} {i : Nat},
    indexOf pat s = some i ↔
      i ≤ s.length ∧ pat <+: s.drop i ∧ ∀ j, j < i → ¬ pat <+: s.drop j := by
  intro s
  induction s with
  | nil =>
    intro i
    rw [indexOf]
    split
    · next hp =>
        subst hp
        simp only [Option.some.injEq, List.length_nil, Nat.le_zero]
        constructor
        · rintro rfl
          exact ⟨rfl, List.nil_prefix, fun j hj => absurd hj (Nat.not_lt_zero j)⟩
        · rintro ⟨rfl, -, -⟩
          rfl
    · next hp =>
        simp only [reduceCtorEq, List.drop_nil, List.prefix_nil, false_iff]
        rintro ⟨-, h, -⟩
        exact hp h
  | cons a s ih =>
    intro i
    rw [indexOf]
    split
    · next hp =>
        rw [List.isPrefixOf_iff_prefix] at hp
        simp only [Option.some.injEq]
        constructor
        · rintro rfl
          exact ⟨Nat.zero_le _, hp, fun j hj => absurd hj (Nat.not_lt_zero j)⟩
        · rintro ⟨-, -, h⟩
          by_contra hne
          exact h 0 (by omega) hp
    · next hp =>
        rw [List.isPrefixOf_iff_prefix] at hp
        rw [Option.map_eq_some_iff]
        constructor
        · rintro ⟨i', hi', rfl⟩
          obtain ⟨hle, hpre, hmin⟩ := ih.mp hi'
          refine ⟨by rw [List.length_cons]; omega, hpre, fun j hj => ?_⟩
          cases j with
          | zero => exact hp
          | succ j => exact hmin j (by omega)
        · rintro ⟨hle, hpre, hmin⟩
          cases i with
          | zero => exact absurd hpre hp
          | succ i =>
            rw [List.length_cons] at hle
            refine ⟨i, ih.mpr ⟨by omega, hpre, fun j hj => ?_⟩, rfl⟩
            exact hmin (j + 1) (by omega)

theorem indexOf_singleton_eq_none {a : α} {s : List α} : indexOf [a] s = none ↔ a ∉ s := by
  induction s with
  | nil => simp [indexOf]
  | cons b s ih =>
    rw [indexOf, List.mem_cons, not_or]
    by_cases hab : a = b
    · simp [hab]
    · simp [hab, ih]

theorem indexOf_singleton_append {a : α} {v : List α} (h : a ∉ v) (rest : List α) :
    indexOf [a] (v ++ a :: rest) = some v.length := by
  induction v with
  | nil => simp [indexOf]
  | cons b v ih =>
    rw [List.mem_cons, not_or] at h
    obtain ⟨hab, hv⟩ := h
    rw [List.cons_append, indexOf, ih hv]
    simp [hab]

theorem exists_indexOf_append (v sep rest : List α) :
    ∃ i, indexOf sep (v ++ (sep ++ rest)) = some i ∧ i ≤ v.length := by
  classical
  have hend : sep <+: (v ++ (sep ++ rest)).drop v.length := by
    rw [List.drop_left]
    exact List.prefix_append _ _
  have hex : ∃ i, sep <+: (v ++ (sep ++ rest)).drop i := ⟨v.length, hend⟩
  have hle : Nat.find hex ≤ v.length := Nat.find_min' hex hend
  refine ⟨Nat.find hex, indexOf_eq_some_iff.mpr ⟨?_, Nat.find_spec hex, ?_⟩, hle⟩
  · rw [List.length_append]
    omega
  · intro j hj
    exact Nat.find_min hex hj

theorem indexOf_append {v sep rest : List α} :
    indexOf sep (v ++ (sep ++ rest)) = some v.length ↔ Clear v sep := by
  rw [indexOf_eq_some_iff]
  constructor
  · rintro ⟨-, -, hmin⟩ j hj
    rw [← prefix_drop_append_iff rest (by omega)]
    exact hmin j hj
  · intro hclear
    refine ⟨by rw [List.length_append]; omega, ?_, fun j hj => ?_⟩
    · rw [List.drop_left]
      exact List.prefix_append _ _
    · rw [prefix_drop_append_iff rest (by omega)]
      exact hclear j hj

/-- A text splits at a separator in one way with a clear left part. -/
theorem Clear.split {v v' sep rest rest' : List α} (h : Clear v sep)
    (h' : Clear v' sep) (heq : v ++ (sep ++ rest) = v' ++ (sep ++ rest')) :
    v = v' ∧ rest = rest' := by
  have hlen : v.length = v'.length := by
    have hi : indexOf sep (v ++ (sep ++ rest)) = some v.length := indexOf_append.mpr h
    rw [heq, indexOf_append.mpr h'] at hi
    exact (Option.some.inj hi).symm
  obtain ⟨hv, hrest⟩ := List.append_inj heq hlen
  exact ⟨hv, List.append_cancel_left hrest⟩

end Search
