import Mathlib.Logic.Function.Basic
import Mathlib.Data.List.Induction

/-!
# A memo table

The first answer under a key is kept with its question and stays: a later job under the key is
not worked out.
-/

namespace Memo

/-- A question under a key, and what it is answered if worked out. -/
structure Job (κ β α : Type) where
  key : κ
  question : β
  answer : Option α

/-- The answers kept. -/
abbrev Table (κ β α : Type) := κ → Option (β × α)

variable {κ β α : Type} [DecidableEq κ] {t : Table κ β α} {k : κ} {r : β × α}

/-- One job, or one that does not use the table. -/
def step (t : Table κ β α) (j : Option (Job κ β α)) : Table κ β α :=
  match j with
  | none => t
  | some j =>
    match t j.key, j.answer with
    | none, some a => Function.update t j.key (some (j.question, a))
    | _, _ => t

/-- The table behind a list of jobs. -/
def after (js : List (Option (Job κ β α))) : Table κ β α := js.foldl step fun _ => none

theorem after_snoc (js : List (Option (Job κ β α))) (j : Option (Job κ β α)) :
    after (js ++ [j]) = step (after js) j := by
  simp [after]

theorem step_cases (t : Table κ β α) (j : Option (Job κ β α)) (k : κ) :
    step t j k = t k ∨
      ∃ job a, j = some job ∧ job.key = k ∧ t k = none ∧ job.answer = some a ∧
        step t j k = some (job.question, a) := by
  cases j with
  | none => exact .inl rfl
  | some job =>
    cases hkey : t job.key with
    | some r => exact .inl (by simp [step, hkey])
    | none =>
      cases hans : job.answer with
      | none => exact .inl (by simp [step, hkey, hans])
      | some a =>
        have hstep : step t (some job) =
            Function.update t job.key (some (job.question, a)) := by
          simp [step, hkey, hans]
        by_cases hk : k = job.key
        · subst hk
          exact .inr ⟨job, a, rfl, rfl, hkey, hans, by rw [hstep, Function.update_self]⟩
        · exact .inl (by rw [hstep, Function.update_of_ne hk])

variable {js : List (Option (Job κ β α))}

end Memo
