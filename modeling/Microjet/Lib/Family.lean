import Microjet.Lib.Run
import Mathlib.Logic.Function.Basic

/-!
# Many machines of one kind

What becomes of a key depends on its own events alone (`run_each`).
-/

namespace Trace

variable {κ σ ε : Type} [DecidableEq κ] {step : σ → ε → Option σ}

/-- A machine for every key, and events that are each about one. -/
def each (step : σ → ε → Option σ) (s : κ → σ) (e : κ × ε) : Option (κ → σ) :=
  (step (s e.1) e.2).map (Function.update s e.1)

/-- The events of a key. -/
def eventsOf (k : κ) (es : List (κ × ε)) : List ε :=
  es.filterMap fun e => if e.1 = k then some e.2 else none

variable {es : List (κ × ε)}

theorem eventsOf_cons_self {k : κ} {e : ε} :
    eventsOf k ((k, e) :: es) = e :: eventsOf k es := by
  simp [eventsOf]

theorem eventsOf_cons_ne {k j : κ} (h : j ≠ k) {e : ε} :
    eventsOf k ((j, e) :: es) = eventsOf k es := by
  simp [eventsOf, h]

/-- Every machine of the family runs on its own. -/
theorem run_each {s s' : κ → σ} (h : run (each step) s es = some s') (k : κ) :
    run step (s k) (eventsOf k es) = some (s' k) := by
  induction es generalizing s with
  | nil =>
    cases h
    rfl
  | cons e es ih =>
    obtain ⟨j, e⟩ := e
    obtain ⟨m, hm, hrest⟩ := run_cons.mp h
    obtain ⟨t, ht, rfl⟩ := Option.map_eq_some_iff.mp hm
    have hk := ih hrest
    by_cases hj : j = k
    · subst hj
      rw [Function.update_self] at hk
      rw [eventsOf_cons_self]
      exact run_cons.mpr ⟨t, ht, hk⟩
    · rw [Function.update_of_ne (Ne.symm hj)] at hk
      rw [eventsOf_cons_ne hj]
      exact hk

end Trace
