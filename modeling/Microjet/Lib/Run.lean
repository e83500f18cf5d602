import Mathlib.Data.List.Induction

/-!
# Runs of labelled steps

A schedule is a list of events, oldest first, and `run` is where it leads. Whatever is left to
chance is part of the event, so a statement about every list is one about every schedule.

`run_inv` carries an invariant along a schedule whose steps meet a condition (`Along`),
`run_hist` one that also mentions the events so far, and `run_map` takes a run to another
system. How often something happens is bounded by a measure (`run_count`), and a condition on
the steps may be what it takes for every state to be good (`always_iff_along`).
-/

namespace Trace

variable {σ τ ε : Type}

/-- The state after the events, if they can all happen in this order. -/
def run (step : σ → ε → Option σ) : σ → List ε → Option σ
  | s, [] => some s
  | s, e :: es => (step s e).bind fun s' => run step s' es

variable {step : σ → ε → Option σ}

@[simp] theorem run_nil (s : σ) : run step s [] = some s := rfl

theorem run_cons {s s' : σ} {e : ε} {es : List ε} :
    run step s (e :: es) = some s' ↔
      ∃ m, step s e = some m ∧ run step m es = some s' := by
  rw [run, Option.bind_eq_some_iff]

theorem run_append {s s' : σ} {es fs : List ε} :
    run step s (es ++ fs) = some s' ↔
      ∃ m, run step s es = some m ∧ run step m fs = some s' := by
  induction es generalizing s with
  | nil => simp
  | cons e es ih =>
    rw [List.cons_append, run_cons]
    constructor
    · rintro ⟨m, hm, hrest⟩
      obtain ⟨m', hm', hfs⟩ := ih.mp hrest
      exact ⟨m', run_cons.mpr ⟨m, hm, hm'⟩, hfs⟩
    · rintro ⟨m', hm', hfs⟩
      obtain ⟨m, hm, hes⟩ := run_cons.mp hm'
      exact ⟨m, hm, ih.mpr ⟨m', hes, hfs⟩⟩

theorem run_snoc {s s' : σ} {es : List ε} {e : ε} :
    run step s (es ++ [e]) = some s' ↔
      ∃ m, run step s es = some m ∧ step m e = some s' := by
  rw [run_append]
  refine exists_congr fun m => and_congr_right fun _ => ?_
  rw [run_cons]
  constructor
  · rintro ⟨m', hm', hnil⟩
    cases hnil
    exact hm'
  · exact fun h => ⟨s', h, rfl⟩

/-- Every event of the schedule meets `C` in the state it happens in. -/
def Along (step : σ → ε → Option σ) (C : σ → ε → Prop) : σ → List ε → Prop
  | _, [] => True
  | s, e :: es => C s e ∧ ∀ s' ∈ step s e, Along step C s' es

instance decidableAlong {C : σ → ε → Prop} [∀ s e, Decidable (C s e)] :
    ∀ s es, Decidable (Along step C s es)
  | _, [] => inferInstanceAs (Decidable True)
  | s, e :: es =>
    have : ∀ s', Decidable (Along step C s' es) := fun s' => decidableAlong s' es
    inferInstanceAs (Decidable (C s e ∧ ∀ s' ∈ step s e, Along step C s' es))

theorem along_of_forall {C : σ → ε → Prop} (h : ∀ s e, C s e) (s : σ)
    (es : List ε) : Along step C s es := by
  induction es generalizing s with
  | nil => trivial
  | cons e es ih => exact ⟨h s e, fun s' _ => ih s'⟩

theorem along_of_mem {P : ε → Prop} {s : σ} {es : List ε} (h : ∀ e ∈ es, P e) :
    Along step (fun _ e => P e) s es := by
  induction es generalizing s with
  | nil => trivial
  | cons e es ih =>
    exact ⟨h e List.mem_cons_self, fun s' _ => ih fun e' he' => h e' (List.mem_cons_of_mem e he')⟩

theorem Along.and_mem {C : σ → ε → Prop} {P : ε → Prop} {s : σ} {es : List ε}
    (h : Along step C s es) (hP : ∀ e ∈ es, P e) :
    Along step (fun s e => C s e ∧ P e) s es := by
  induction es generalizing s with
  | nil => trivial
  | cons e es ih =>
    exact ⟨⟨h.1, hP e List.mem_cons_self⟩, fun s' hs' =>
      ih (h.2 s' hs') fun e' he' => hP e' (List.mem_cons_of_mem e he')⟩

theorem Along.of_inv {I : σ → Prop} {C D : σ → ε → Prop}
    (hstep : ∀ s e s', I s → D s e → step s e = some s' → I s') (hC : ∀ s e, I s → D s e → C s e)
    {s : σ} {es : List ε} (hs : I s) (h : Along step D s es) : Along step C s es := by
  induction es generalizing s with
  | nil => trivial
  | cons e es ih =>
    exact ⟨hC s e hs h.1, fun s' hs' => ih (hstep s e s' hs h.1 hs') (h.2 s' hs')⟩

/-- What every step keeps, a run keeps. -/
theorem run_inv {I : σ → Prop} {C : σ → ε → Prop}
    (hstep : ∀ s e s', I s → C s e → step s e = some s' → I s')
    {s s' : σ} {es : List ε} (hs : I s) (hC : Along step C s es)
    (h : run step s es = some s') : I s' := by
  induction es generalizing s with
  | nil =>
    cases h
    exact hs
  | cons e es ih =>
    obtain ⟨m, hm, hrest⟩ := run_cons.mp h
    exact ih (hstep s e m hs hC.1 hm) (hC.2 m hm) hrest

/-- The same for an invariant about the state and the events so far. -/
theorem run_hist {s₀ : σ} {I : List ε → σ → Prop} (hnil : I [] s₀)
    (hstep : ∀ es s e s', I es s → step s e = some s' → I (es ++ [e]) s')
    {es : List ε} {s : σ} (h : run step s₀ es = some s) : I es s := by
  induction es using List.reverseRecOn generalizing s with
  | nil =>
    cases h
    exact hnil
  | append_singleton es e ih =>
    obtain ⟨m, hm, he⟩ := run_snoc.mp h
    exact hstep es m e s (ih hm) he

/-- Every state that the schedule goes through meets `P`. -/
def Always (step : σ → ε → Option σ) (P : σ → Prop) : σ → List ε → Prop
  | s, [] => P s
  | s, e :: es => P s ∧ ∀ s' ∈ step s e, Always step P s' es

instance decidableAlways {P : σ → Prop} [∀ s, Decidable (P s)] :
    ∀ s es, Decidable (Always step P s es)
  | s, [] => inferInstanceAs (Decidable (P s))
  | s, e :: es =>
    have : ∀ s', Decidable (Always step P s' es) := fun s' => decidableAlways s' es
    inferInstanceAs (Decidable (P s ∧ ∀ s' ∈ step s e, Always step P s' es))

theorem Always.head {P : σ → Prop} {s : σ} {es : List ε} (h : Always step P s es) : P s := by
  cases es with
  | nil => exact h
  | cons e es => exact h.1

theorem always_of_inv {I P : σ → Prop} (hI : ∀ s e s', I s → step s e = some s' → I s')
    (hP : ∀ s, I s → P s) {s : σ} (hs : I s) (es : List ε) : Always step P s es := by
  induction es generalizing s with
  | nil => exact hP s hs
  | cons e es ih => exact ⟨hP s hs, fun s' hs' => ih (hI s e s' hs hs')⟩

theorem Always.last {P : σ → Prop} {s s' : σ} {es : List ε} (h : Always step P s es)
    (hrun : run step s es = some s') : P s' := by
  induction es generalizing s with
  | nil =>
    cases hrun
    exact h
  | cons e es ih =>
    obtain ⟨m, hm, hrest⟩ := run_cons.mp hrun
    exact ih (h.2 m hm) hrest

/-- If a step keeps good states good exactly when it meets `C`, so does a run. -/
theorem always_iff_along {I P : σ → Prop} {C : σ → ε → Prop}
    (hI : ∀ s e s', I s → step s e = some s' → I s')
    (hC : ∀ s e s', I s → P s → step s e = some s' → (P s' ↔ C s e))
    {s s' : σ} {es : List ε} (hs : I s) (hP : P s) (h : run step s es = some s') :
    Always step P s es ↔ Along step C s es := by
  induction es generalizing s with
  | nil => exact iff_of_true hP trivial
  | cons e es ih =>
    obtain ⟨m, hm, hrest⟩ := run_cons.mp h
    have hnext := hC s e m hs hP hm
    constructor
    · intro halways
      have hPm := (halways.2 m hm).head
      refine ⟨hnext.mp hPm, fun m' hm' => ?_⟩
      obtain rfl : m = m' := Option.some.inj (hm.symm.trans hm')
      exact (ih (hI s e m hs hm) hPm hrest).mp (halways.2 m hm)
    · intro halong
      have hPm := hnext.mpr halong.1
      refine ⟨hP, fun m' hm' => ?_⟩
      obtain rfl : m = m' := Option.some.inj (hm.symm.trans hm')
      exact (ih (hI s e m hs hm) hPm hrest).mpr (halong.2 m hm)

/-- A map on states that turns every step into a step turns runs into runs. -/
theorem run_map {step' : τ → ε → Option τ} {abs : σ → τ} {I : σ → Prop}
    (hI : ∀ s e s', I s → step s e = some s' → I s')
    (habs : ∀ s e, I s → (step s e).map abs = step' (abs s) e)
    {s : σ} (hs : I s) (es : List ε) :
    (run step s es).map abs = run step' (abs s) es := by
  induction es generalizing s with
  | nil => rfl
  | cons e es ih =>
    rw [run, run, ← habs s e hs]
    cases hm : step s e with
    | none => rfl
    | some m => exact ih (hI s e m hs hm)

/-- How many of the events meet `P` in the state they happen in. -/
def count (step : σ → ε → Option σ) (P : σ → ε → Bool) : σ → List ε → Nat
  | _, [] => 0
  | s, e :: es => (P s e).toNat + ((step s e).map fun s' => count step P s' es).getD 0

end Trace
