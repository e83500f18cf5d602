import Mathlib.Data.List.Sort

/-!
# Ranks in a sorted list

In a strictly sorted list an element is among the first `n` exactly if fewer than `n` are
below it, which is what a `LIMIT` after an `ORDER BY` comes to. Sorting by insertion is stable
(`pairwise_stable`).
-/

namespace Sorted

variable {α : Type} {key : α → Nat}

theorem mem_take_iff {l : List α} (hl : l.Pairwise fun a b => key a < key b) {m : α}
    (hm : m ∈ l) (n : Nat) :
    m ∈ l.take n ↔ l.countP (fun a => key a < key m) < n := by
  induction l generalizing n with
  | nil => cases hm
  | cons a l ih =>
    obtain ⟨ha, hl⟩ := List.pairwise_cons.mp hl
    cases n with
    | zero => simp
    | succ n =>
      rw [List.take_succ_cons, List.mem_cons]
      rcases List.mem_cons.mp hm with rfl | hm
      · have hzero : (m :: l).countP (fun b => key b < key m) = 0 := by
          refine List.countP_eq_zero.mpr fun b hb => ?_
          rcases List.mem_cons.mp hb with rfl | hb
          · simp
          · simpa using (ha b hb).le
        simp [hzero]
      · have hne : m ≠ a := fun heq => absurd (ha m hm) (by rw [heq]; simp)
        rw [List.countP_cons_of_pos (by simpa using ha m hm), Nat.succ_lt_succ_iff,
          ← ih hl hm n]
        exact or_iff_right hne

theorem pairwise_insertionSort (key : α → Nat) {l : List α} (h : (l.map key).Nodup) :
    (l.insertionSort fun a b => key a ≤ key b).Pairwise fun a b => key a < key b := by
  have hle : (l.insertionSort fun a b => key a ≤ key b).Pairwise
      fun a b => key a ≤ key b := by
    have htotal : Std.Total fun a b => key a ≤ key b := ⟨fun a b => Nat.le_total _ _⟩
    have htrans : IsTrans α fun a b => key a ≤ key b := ⟨fun _ _ _ => Nat.le_trans⟩
    exact List.pairwise_insertionSort _ l
  have hne : (l.insertionSort fun a b => key a ≤ key b).Pairwise
      fun a b => key a ≠ key b := by
    rw [← List.pairwise_map (R := (· ≠ ·)) (f := key)]
    exact ((List.perm_insertionSort _ l).map key).nodup_iff.mpr h
  exact hle.imp₂ (fun _ _ h h' => lt_of_le_of_ne h h') hne

section Stable

variable {κ : Type} [LinearOrder κ] {rank : α → κ} {P : α → α → Prop}

/-- By rank first, then by the relation. -/
def Lex (rank : α → κ) (P : α → α → Prop) (a b : α) : Prop :=
  rank a < rank b ∨ rank a = rank b ∧ P a b

theorem pairwise_orderedInsert {a : α} {l : List α} (ha : ∀ b ∈ l, P a b)
    (hl : l.Pairwise (Lex rank P)) :
    (l.orderedInsert (fun a b => rank a ≤ rank b) a).Pairwise (Lex rank P) := by
  induction l with
  | nil => exact List.pairwise_singleton _ _
  | cons b l ih =>
    obtain ⟨hb, hl⟩ := List.pairwise_cons.mp hl
    rw [List.orderedInsert]
    split
    · next hle =>
        -- what comes after `b` has no smaller key than `b`
        refine List.pairwise_cons.mpr ⟨fun c hc => ?_, List.pairwise_cons.mpr ⟨hb, hl⟩⟩
        have hac : rank a ≤ rank c := by
          rcases List.mem_cons.mp hc with rfl | hc
          · exact hle
          · rcases hb c hc with h | h
            · exact hle.trans h.le
            · exact hle.trans h.1.le
        exact hac.lt_or_eq.imp_right fun heq => ⟨heq, ha c hc⟩
    · next hlt =>
        refine List.pairwise_cons.mpr ⟨fun c hc => ?_,
          ih (fun c hc => ha c (List.mem_cons_of_mem b hc)) hl⟩
        rcases (List.perm_orderedInsert _ a l).mem_iff.mp hc |> List.mem_cons.mp with rfl | hc
        · exact .inl (lt_of_not_ge hlt)
        · exact hb c hc

theorem pairwise_stable {l : List α} (h : l.Pairwise P) :
    (l.insertionSort fun a b => rank a ≤ rank b).Pairwise (Lex rank P) := by
  induction l with
  | nil => exact .nil
  | cons a l ih =>
    obtain ⟨ha, hl⟩ := List.pairwise_cons.mp h
    refine pairwise_orderedInsert (fun b hb => ha b ?_) (ih hl)
    exact (List.perm_insertionSort _ l).mem_iff.mp hb

end Stable

section Keyed

variable {κ β : Type} {le le' : κ → κ → Bool} {R : β → β → Prop} {e e' : κ × β}
  {xs ys : List (κ × β)}

/-- Sorted by key. -/
def byKey (le : κ → κ → Bool) (xs : List (κ × β)) : List (κ × β) :=
  xs.insertionSort fun e e' => le e.1 e'.1 = true

end Keyed

end Sorted
