import Mathlib.Data.List.Nodup
import Mathlib.Logic.Function.Basic

/-!
# Lists of assignments

A list of assignments is carried out from left to right, each to a place of its own with a
value computed from the state at that moment (`run_at`). Carrying it out once more changes
nothing exactly if every place holds what its assignment computes there (`run_fixed`).
-/

namespace Assign

variable {ι α V W : Type} [DecidableEq ι] (tgt : α → ι)

/-- Carry out the assignments; an assignment may fail. -/
def run (ev : α → (ι → V) → Option V) : List α → (ι → V) → Option (ι → V)
  | [], v => some v
  | a :: as, v => (ev a v).bind fun x => run ev as (Function.update v (tgt a) x)

/-- Carries out the whole list. -/
def runs (ev : α → (ι → V) → V) : List α → (ι → V) → (ι → V)
  | [], v => v
  | a :: as, v => runs ev as (Function.update v (tgt a) (ev a v))

variable {tgt} {ev : α → (ι → V) → Option V}

theorem run_eq_runs (ev : α → (ι → V) → V) (as : List α) (v : ι → V) :
    run tgt (fun a v => some (ev a v)) as v = some (runs tgt ev as v) := by
  induction as generalizing v with
  | nil => rfl
  | cons a as ih => exact ih _

variable {v v' : ι → V} {as : List α}

theorem run_cons {a : α} :
    run tgt ev (a :: as) v = some v' ↔
      ∃ x, ev a v = some x ∧ run tgt ev as (Function.update v (tgt a) x) = some v' := by
  rw [run, Option.bind_eq_some_iff]

theorem run_append {as bs : List α} :
    run tgt ev (as ++ bs) v = some v' ↔
      ∃ m, run tgt ev as v = some m ∧ run tgt ev bs m = some v' := by
  induction as generalizing v with
  | nil => simp [run]
  | cons a as ih =>
    rw [List.cons_append, run_cons]
    constructor
    · rintro ⟨x, hx, h⟩
      obtain ⟨m, hm, hbs⟩ := ih.mp h
      exact ⟨m, run_cons.mpr ⟨x, hx, hm⟩, hbs⟩
    · rintro ⟨m, hm, hbs⟩
      obtain ⟨x, hx, h⟩ := run_cons.mp hm
      exact ⟨x, hx, ih.mpr ⟨m, h, hbs⟩⟩

theorem run_frame (h : run tgt ev as v = some v') {i : ι} (hi : i ∉ as.map tgt) : v' i = v i := by
  induction as generalizing v with
  | nil =>
    cases h
    rfl
  | cons a as ih =>
    obtain ⟨x, -, h⟩ := run_cons.mp h
    rw [List.map_cons, List.mem_cons, not_or] at hi
    rw [ih h hi.2, Function.update_of_ne hi.1]

/-- What an assignment in the middle has seen, and what it has done. -/
theorem run_at {as bs : List α} {a : α} (h : run tgt ev (as ++ a :: bs) v = some v')
    (hd : ((as ++ a :: bs).map tgt).Nodup) :
    ∃ m, run tgt ev as v = some m ∧ ev a m = some (v' (tgt a)) ∧
      (∀ i ∈ bs.map tgt, m i = v i) ∧ ∀ i, i ∉ (a :: bs).map tgt → v' i = m i := by
  obtain ⟨m, hm, hrest⟩ := run_append.mp h
  obtain ⟨x, hx, hbs⟩ := run_cons.mp hrest
  rw [List.map_append, List.nodup_append] at hd
  obtain ⟨-, hd, hdisj⟩ := hd
  rw [List.map_cons, List.nodup_cons] at hd
  have hat : v' (tgt a) = x := by rw [run_frame hbs hd.1, Function.update_self]
  refine ⟨m, hm, hat ▸ hx, fun i hi => run_frame hm fun hmem => ?_, fun i hi => ?_⟩
  · exact hdisj i hmem i (List.mem_cons_of_mem _ hi) rfl
  · rw [List.map_cons, List.mem_cons, not_or] at hi
    rw [run_frame hbs hi.2, Function.update_of_ne hi.1]

theorem run_fixed (hd : (as.map tgt).Nodup) {v : ι → V} :
    run tgt ev as v = some v ↔ ∀ a ∈ as, ev a v = some (v (tgt a)) := by
  constructor
  · intro h a ha
    obtain ⟨pre, post, rfl⟩ := List.append_of_mem ha
    obtain ⟨m, hm, hev, hold, hnew⟩ := run_at h hd
    -- the state in the middle is `v`: what comes later is still old, the rest is done
    have hv : m = v := by
      funext i
      by_cases hi : i ∈ (a :: post).map tgt
      · rcases List.mem_cons.mp hi with rfl | hi
        · refine run_frame hm fun hmem => ?_
          rw [List.map_append, List.nodup_append] at hd
          exact hd.2.2 _ hmem _ List.mem_cons_self rfl
        · exact hold i hi
      · exact (hnew i hi).symm
    rw [hv] at hev
    exact hev
  · intro h
    induction as with
    | nil => rfl
    | cons a as ih =>
      rw [List.map_cons, List.nodup_cons] at hd
      refine run_cons.mpr ⟨v (tgt a), h a List.mem_cons_self, ?_⟩
      rw [Function.update_eq_self]
      exact ih hd.2 fun b hb => h b (List.mem_cons_of_mem a hb)

/-- Two readings of the same assignments, related place by place. -/
theorem run_sim (ev' : α → (ι → W) → Option W) {R : ι → V → W → Prop}
    (hsim : ∀ a ∈ as, ∀ v w x, (∀ i, R i (v i) (w i)) → ev a v = some x →
      ∃ y, ev' a w = some y ∧ R (tgt a) x y)
    {w : ι → W} (hR : ∀ i, R i (v i) (w i)) (h : run tgt ev as v = some v') :
    ∃ w', run tgt ev' as w = some w' ∧ ∀ i, R i (v' i) (w' i) := by
  induction as generalizing v w with
  | nil =>
    cases h
    exact ⟨w, rfl, hR⟩
  | cons a as ih =>
    obtain ⟨x, hx, h⟩ := run_cons.mp h
    obtain ⟨y, hy, hxy⟩ := hsim a List.mem_cons_self v w x hR hx
    have hR' : ∀ i, R i (Function.update v (tgt a) x i) (Function.update w (tgt a) y i) := by
      intro i
      by_cases hi : i = tgt a
      · subst hi
        rw [Function.update_self, Function.update_self]
        exact hxy
      · rw [Function.update_of_ne hi, Function.update_of_ne hi]
        exact hR i
    obtain ⟨w', hw', hR''⟩ := ih (fun b hb => hsim b (List.mem_cons_of_mem a hb)) hR' h
    exact ⟨w', run_cons.mpr ⟨y, hy, hw'⟩, hR''⟩

theorem runs_sim {ev : α → (ι → V) → V} {ev' : α → (ι → W) → W} {R : ι → V → W → Prop}
    (hsim : ∀ a ∈ as, ∀ v w, (∀ i, R i (v i) (w i)) → R (tgt a) (ev a v) (ev' a w)) {v : ι → V}
    {w : ι → W} (hR : ∀ i, R i (v i) (w i)) (i : ι) :
    R i (runs tgt ev as v i) (runs tgt ev' as w i) := by
  obtain ⟨w', hw', hR'⟩ := run_sim (fun a w => some (ev' a w)) (fun a ha v w x hvw hx => by
      cases hx
      exact ⟨_, rfl, hsim a ha v w hvw⟩) hR (run_eq_runs ev as v)
  rw [run_eq_runs] at hw'
  cases hw'
  exact hR' i

end Assign
