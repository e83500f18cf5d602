import Mathlib.Data.List.Basic

/-!
# Cutting a list into chunks
-/

namespace Chunks

variable {α : Type}

/-- The chunks begin at every multiple of `n` below the length. -/
def chunks (n : Nat) (l : List α) : List (List α) :=
  (List.range ((l.length + n - 1) / n)).map fun j => (l.drop (n * j)).take n

theorem flatten_range (n k : Nat) (l : List α) :
    ((List.range k).map fun j => (l.drop (n * j)).take n).flatten = l.take (n * k) := by
  induction k with
  | zero => rw [Nat.mul_zero, List.take_zero]; rfl
  | succ k ih =>
    rw [List.range_succ, List.map_append, List.flatten_append, ih, Nat.mul_succ, List.take_add]
    simp

theorem flatten_chunks {n : Nat} (hn : 0 < n) (l : List α) : (chunks n l).flatten = l := by
  rw [chunks, flatten_range]
  refine List.take_of_length_le ?_
  have hmod := Nat.div_add_mod (l.length + n - 1) n
  have hlt := Nat.mod_lt (l.length + n - 1) hn
  omega

theorem length_le_of_mem_chunks {n : Nat} {l c : List α} (h : c ∈ chunks n l) : c.length ≤ n := by
  obtain ⟨j, -, rfl⟩ := List.mem_map.mp h
  exact List.length_take_le _ _

end Chunks
