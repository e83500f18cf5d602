/-!
# Logs

A log is the list of what has happened, the newest first.
-/

namespace Log

variable {N : Type} {P Q : N → List N → Prop} {log : List N} {n : N}

/-- Every note, together with the notes before it. -/
def Each (P : N → List N → Prop) : List N → Prop
  | [] => True
  | n :: log => P n log ∧ Each P log

theorem Each.imp (h : Each P log) (hPQ : ∀ n older, P n older → Q n older) : Each Q log := by
  induction log with
  | nil => trivial
  | cons n log ih => exact ⟨hPQ n log h.1, ih h.2⟩

theorem each_iff :
    Each P log ↔ ∀ newer n older, log = newer ++ n :: older → P n older := by
  constructor
  · intro h newer n older heq
    subst heq
    induction newer with
    | nil => exact h.1
    | cons m newer ih => exact ih h.2
  · intro h
    induction log with
    | nil => trivial
    | cons n log ih =>
      refine ⟨h [] n log rfl, ih fun newer m older heq => h (n :: newer) m older ?_⟩
      rw [heq]
      rfl

theorem Each.after {newer older : List N} {m : N} (h : Each P log)
    (hlog : log = newer ++ n :: older) (hm : m ∈ newer) :
    ∃ between, P m (between ++ n :: older) := by
  obtain ⟨newest, between, rfl⟩ := List.append_of_mem hm
  rw [List.append_assoc, List.cons_append] at hlog
  exact ⟨between, each_iff.mp h newest m _ hlog⟩

end Log
