import Mathlib.Data.List.Basic
import Mathlib.Algebra.BigOperators.Group.List.Basic

/-!
# Words with variables

Two words that come to the same string whatever is put for the variables are equal
(`eq_of_subst`).
-/

namespace Word

variable {α ι : Type}

/-- A letter or a variable. -/
inductive Sym (α ι : Type) where
  | letter (a : α)
  | var (i : ι)
  deriving DecidableEq

/-- What a symbol comes to. -/
def Sym.subst (σ : ι → List α) : Sym α ι → List α
  | .letter a => [a]
  | .var i => σ i

/-- The string that a word comes to. -/
def subst (σ : ι → List α) (w : List (Sym α ι)) : List α := w.flatMap (Sym.subst σ)

@[simp] theorem subst_nil (σ : ι → List α) : subst σ [] = [] := rfl

@[simp] theorem subst_append (σ : ι → List α) (u w : List (Sym α ι)) :
    subst σ (u ++ w) = subst σ u ++ subst σ w := by
  simp [subst]

@[simp] theorem subst_letters (σ : ι → List α) (s : List α) :
    subst σ (s.map Sym.letter) = s := by
  induction s with
  | nil => rfl
  | cons a s ih => exact congrArg (a :: ·) ih

theorem subst_var (σ : ι → List α) (i : ι) : subst σ [.var i] = σ i := by
  simp [subst, Sym.subst]

/-- With one letter for each variable. -/
def Sym.flat (f : ι → α) : Sym α ι → α
  | .letter a => a
  | .var i => f i

theorem subst_flat (f : ι → α) (w : List (Sym α ι)) :
    subst (fun i => [f i]) w = w.map (Sym.flat f) := by
  induction w with
  | nil => rfl
  | cons s w ih =>
    cases s with
    | letter a => exact congrArg (a :: ·) ih
    | var i => exact congrArg (f i :: ·) ih

theorem sym_eq [DecidableEq ι] {a b : α} (hab : a ≠ b) {s s' : Sym α ι}
    (h : ∀ f : ι → α, s.flat f = s'.flat f) : s = s' := by
  have hletter : ∀ (c : α) (i : ι), ¬ ∀ f : ι → α, c = f i := by
    intro c i hc
    exact hab ((hc fun _ => a).symm.trans (hc fun _ => b))
  cases s with
  | letter c =>
    cases s' with
    | letter c' => exact congrArg Sym.letter (h fun _ => a)
    | var i => exact absurd h (hletter c i)
  | var i =>
    cases s' with
    | letter c => exact absurd (fun f => (h f).symm) (hletter c i)
    | var j =>
      by_cases hij : i = j
      · rw [hij]
      · have hf := h fun k => if k = i then a else b
        simp only [Sym.flat, if_true, Ne.symm hij, if_false] at hf
        exact absurd hf hab

variable {u w : List (Sym α ι)}

theorem eq_of_flat [DecidableEq ι] {a b : α} (hab : a ≠ b)
    (h : ∀ f : ι → α, u.map (Sym.flat f) = w.map (Sym.flat f)) : u = w := by
  induction u generalizing w with
  | nil =>
    have hnil := h fun _ => a
    rw [List.map_nil, eq_comm, List.map_eq_nil_iff] at hnil
    exact hnil.symm
  | cons s u ih =>
    cases w with
    | nil => cases h fun _ => a
    | cons s' w =>
      have hhead := sym_eq hab fun f => (List.cons.inj (h f)).1
      have htail := ih fun f => (List.cons.inj (h f)).2
      rw [hhead, htail]

theorem eq_of_subst [DecidableEq ι] {a b : α} (hab : a ≠ b)
    (h : ∀ σ, subst σ u = subst σ w) : u = w := by
  refine eq_of_flat hab fun f => ?_
  rw [← subst_flat, ← subst_flat]
  exact h _

theorem flatMap_inj {β γ : Type} {f g : β → List γ} {l : List β}
    (hle : ∀ x ∈ l, (f x).length ≤ (g x).length) (h : l.flatMap f = l.flatMap g) :
    ∀ x ∈ l, f x = g x := by
  have hsum : ∀ l : List β, (∀ x ∈ l, (f x).length ≤ (g x).length) →
      (l.flatMap f).length ≤ (l.flatMap g).length := by
    intro l
    induction l with
    | nil => exact fun _ => Nat.le_refl 0
    | cons x l ih =>
      intro hle
      have hx := hle x List.mem_cons_self
      have hl := ih fun y hy => hle y (List.mem_cons_of_mem x hy)
      rw [List.flatMap_cons, List.flatMap_cons, List.length_append, List.length_append]
      omega
  induction l with
  | nil => exact nofun
  | cons x l ih =>
    rw [List.flatMap_cons, List.flatMap_cons] at h
    have hl := hsum l fun y hy => hle y (List.mem_cons_of_mem x hy)
    have hx := hle x List.mem_cons_self
    have hlen := congrArg List.length h
    rw [List.length_append, List.length_append] at hlen
    obtain ⟨hhead, htail⟩ := List.append_inj h (by omega)
    intro y hy
    rcases List.mem_cons.mp hy with rfl | hy
    · exact hhead
    · exact ih (fun z hz => hle z (List.mem_cons_of_mem x hz)) htail y hy

end Word
