import Mathlib.Data.List.Basic

/-!
# Walking through pages by tokens

A client asks for a page without a token, then with each token it is given. What carries a walk
is what is still to come behind a token (`Resumes`): a bound on it makes the walk end (`ends`),
and the pages together are all of it, once and in order (`flatten`).
-/

namespace Pages

variable {τ ι : Type}

/-- The pages of a walk, from request `n` and a token on. -/
inductive Walk (answers : Nat → Option τ → List ι → Option τ → Prop) :
    Nat → Option τ → List (List ι) → Prop where
  | last {n : Nat} {token : Option τ} {items : List ι} (h : answers n token items none) :
      Walk answers n token [items]
  | more {n : Nat} {token : Option τ} {items : List ι} {next : τ} {pages : List (List ι)}
      (h : answers n token items (some next)) (hrest : Walk answers (n + 1) (some next) pages) :
      Walk answers n token (items :: pages)

/-- `To token size todo`: behind the token comes `todo`, of some size. -/
structure Resumes (answers : Nat → Option τ → List ι → Option τ → Prop)
    (To : Option τ → Nat → List ι → Prop) : Prop where
  total : ∀ {n token size todo}, To token size todo → ∃ items next, answers n token items next
  last : ∀ {n token size todo items}, To token size todo → answers n token items none →
    items = todo
  more : ∀ {n token size todo items next}, To token size todo →
    answers n token items (some next) →
      ∃ size' rest, size' < size ∧ todo = items ++ rest ∧ To (some next) size' rest

variable {answers : Nat → Option τ → List ι → Option τ → Prop}
  {To : Option τ → Nat → List ι → Prop}

theorem Resumes.ends (h : Resumes answers To) {n : Nat} {token : Option τ} {size : Nat}
    {todo : List ι} (ht : To token size todo) : ∃ pages, Walk answers n token pages := by
  induction size using Nat.strongRecOn generalizing n token todo with
  | ind size ih =>
    obtain ⟨items, next, hask⟩ := h.total (n := n) ht
    cases next with
    | none => exact ⟨_, .last hask⟩
    | some next =>
      obtain ⟨size', rest, hlt, -, hrest⟩ := h.more ht hask
      obtain ⟨pages, hpages⟩ := ih size' hlt (n := n + 1) hrest
      exact ⟨_, .more hask hpages⟩

theorem Resumes.flatten (h : Resumes answers To) {n : Nat} {token : Option τ} {size : Nat}
    {todo : List ι} (ht : To token size todo) {pages : List (List ι)}
    (hw : Walk answers n token pages) : pages.flatten = todo := by
  induction hw generalizing size todo with
  | last hask =>
    rw [List.flatten_singleton]
    exact h.last ht hask
  | more hask _ ih =>
    obtain ⟨size', rest, -, rfl, hrest⟩ := h.more ht hask
    rw [List.flatten_cons, ih hrest]

end Pages
