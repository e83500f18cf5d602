import Mathlib.Data.List.Basic

/-!
# Machines that answer every call

`step s x` is the answer to the call `x` in the state `s`, and the state after it. Two machines
that keep in step give the same answers (`outputs_sim`), also to different calls of which `Q`
holds pair by pair.
-/

namespace Machine

variable {σ τ ι κ ο : Type}

/-- The answers to a list of calls. -/
def outputs (step : σ → ι → ο × σ) : σ → List ι → List ο
  | _, [] => []
  | s, x :: xs => (step s x).1 :: outputs step (step s x).2 xs

/-- The state after it. -/
def final (step : σ → ι → ο × σ) : σ → List ι → σ
  | s, [] => s
  | s, x :: xs => final step (step s x).2 xs

variable {step : σ → ι → ο × σ} {step' : τ → κ → ο × τ}

/-- The calls of the second list correspond to those of the first. -/
def Paired (step : σ → ι → ο × σ) (Q : σ → ι → κ → Prop) : σ → List ι → List κ → Prop
  | _, [], [] => True
  | s, x :: xs, y :: ys => Q s x y ∧ Paired step Q (step s x).2 xs ys
  | _, _, _ => False

variable {Q : σ → ι → κ → Prop}

theorem Paired.cons {s : σ} {x : ι} {y : κ} {xs : List ι} {ys : List κ}
    (h : Q s x y) (ht : Paired step Q (step s x).2 xs ys) :
    Paired step Q s (x :: xs) (y :: ys) := ⟨h, ht⟩

theorem paired_self {Q : σ → ι → ι → Prop} (h : ∀ s x, Q s x x) (s : σ) (xs : List ι) :
    Paired step Q s xs xs := by
  induction xs generalizing s with
  | nil => trivial
  | cons x xs ih => exact ⟨h s x, ih _⟩

/-- Machines that keep in step give the same answers, and stay in step. -/
theorem outputs_sim {R : σ → τ → Prop} (hstep : ∀ s t x y, R s t → Q s x y →
      (step s x).1 = (step' t y).1 ∧ R (step s x).2 (step' t y).2)
    {s : σ} {t : τ} {xs : List ι} {ys : List κ} (hR : R s t) (hQ : Paired step Q s xs ys) :
    outputs step s xs = outputs step' t ys ∧ R (final step s xs) (final step' t ys) := by
  induction xs generalizing s t ys with
  | nil =>
    cases ys with
    | nil => exact ⟨rfl, hR⟩
    | cons y ys => exact hQ.elim
  | cons x xs ih =>
    cases ys with
    | nil => exact hQ.elim
    | cons y ys =>
      obtain ⟨hout, hnext⟩ := hstep s t x y hR hQ.1
      obtain ⟨houts, hfinal⟩ := ih hnext hQ.2
      refine ⟨?_, hfinal⟩
      rw [outputs, outputs, hout, houts]

theorem final_inv {I : σ → Prop} {xs : List ι} (hstep : ∀ s, ∀ x ∈ xs, I s → I (step s x).2)
    {s : σ} (hs : I s) : I (final step s xs) := by
  induction xs generalizing s with
  | nil => exact hs
  | cons x xs ih =>
    exact ih (fun s y hy => hstep s y (List.mem_cons_of_mem x hy))
      (hstep s x List.mem_cons_self hs)

end Machine
