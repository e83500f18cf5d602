import Microjet.Lib.Prog

/-!
# Rely and guarantee

An invariant of a concurrent system is proved one thread at a time. `Ok D t p P Q` says that
thread `t`, started on `p` where `P` holds, keeps the discipline as long as everyone else does,
and returns with `Q`; the assertions in between have to be `Stable`. `Sound.reach` is the
induction over schedules, made once.
-/

namespace Conc

variable {Tid Op : Type} {Ans : Op → Type} {St α β : Type}

/-- The invariant, what each agent may do, what a program leaves, and what holds when idle. -/
structure Discipline (Tid St α : Type) where
  inv : St → Prop
  guar : Option Tid → St → St → Prop
  post : Tid → α → St → Prop
  idle : Tid → St → Prop

/-- `P` survives the steps of everyone but `t`. -/
def Stable (D : Discipline Tid St α) (t : Tid) (P : St → Prop) : Prop :=
  ∀ u s s', u ≠ some t → D.inv s → D.inv s' → D.guar u s s' → P s → P s'

/-- Thread `t` may run `p` from `P` and returns with `Q`, by stable assertions in between. -/
def Ok (M : Machine Tid Op Ans St α) (D : Discipline Tid St α) (t : Tid) :
    Prog Op Ans β → (St → Prop) → (β → St → Prop) → Prop
  | .ret b, P, Q => ∀ s, D.inv s → P s → Q b s
  | .call op k, P, Q => ∃ R : Ans op → St → Prop,
      (∀ a, Stable D t (R a)) ∧
      (∀ s a s', D.inv s → P s → M.exec t op s a s' →
        D.inv s' ∧ D.guar (some t) s s' ∧ R a s') ∧
      ∀ a, Ok M D t (k a) (R a) Q

section Rules

variable {M : Machine Tid Op Ans St α} {D : Discipline Tid St α} {t : Tid}

variable {P : St → Prop} {Q : β → St → Prop}

theorem Ok.ret {b : β} (h : ∀ s, D.inv s → P s → Q b s) : Ok M D t (.ret b : Prog Op Ans β) P Q := h

/-- The rule for one question: an assertion for every answer, from which the rest runs. -/
theorem Ok.ask {op : Op} {f : Ans op → Prog Op Ans β} (R : Ans op → St → Prop)
    (hstable : ∀ a, Stable D t (R a))
    (hstep : ∀ s a s', D.inv s → P s → M.exec t op s a s' →
      D.inv s' ∧ D.guar (some t) s s' ∧ R a s')
    (hrest : ∀ a, Ok M D t (f a) (R a) Q) : Ok M D t (Prog.ask op >>= f) P Q :=
  ⟨R, hstable, hstep, hrest⟩

variable {p : Prog Op Ans β}

theorem Ok.weaken {P P' : St → Prop} (hp : Ok M D t p P' Q) (h : ∀ s, D.inv s → P s → P' s) :
    Ok M D t p P Q := by
  cases p with
  | ret b => exact fun s hi hP => hp s hi (h s hi hP)
  | call op k =>
    obtain ⟨R, hstable, hstep, hrest⟩ := hp
    exact ⟨R, hstable, fun s a s' hi hP => hstep s a s' hi (h s hi hP), hrest⟩

theorem Ok.post {Q Q' : β → St → Prop} (hp : Ok M D t p P Q) (h : ∀ b s, D.inv s → Q b s → Q' b s) :
    Ok M D t p P Q' := by
  induction p generalizing P with
  | ret b => exact fun s hi hP => h b s hi (hp s hi hP)
  | call op k ih =>
    obtain ⟨R, hstable, hstep, hrest⟩ := hp
    exact ⟨R, hstable, hstep, fun a => ih a (hrest a)⟩

theorem Ok.bind {γ : Type} {f : β → Prog Op Ans γ} {R : β → St → Prop} {Q : γ → St → Prop}
    (hp : Ok M D t p P R) (hf : ∀ b, Ok M D t (f b) (R b) Q) :
    Ok M D t (p >>= f) P Q := by
  induction p generalizing P with
  | ret b => exact (hf b).weaken hp
  | call op k ih =>
    obtain ⟨S, hstable, hstep, hrest⟩ := hp
    exact ⟨S, hstable, hstep, fun a => ih a (hrest a)⟩

end Rules

/-- What a system has to show once for its discipline to hold on every
schedule. -/
structure Sound (M : Machine Tid Op Ans St α) (D : Discipline Tid St α) :
    Prop where
  idle_stable : ∀ t, Stable D t (D.idle t)
  start : ∀ t p s s', D.inv s → D.idle t s → M.start t p s s' →
    D.inv s' ∧ D.guar (some t) s s' ∧
      ∃ P, Stable D t P ∧ P s' ∧ Ok M D t p P (D.post t)
  finish : ∀ t a s s', D.inv s → D.post t a s → M.finish t a s s' →
    D.inv s' ∧ D.guar (some t) s s' ∧ D.idle t s'
  crash : ∀ t s s', D.inv s → M.crash t s s' →
    D.inv s' ∧ D.guar (some t) s s' ∧ D.idle t s'
  env : ∀ s s', D.inv s → M.env s s' → D.inv s' ∧ D.guar none s s'

/-- What is true of a thread. -/
def Standing (M : Machine Tid Op Ans St α) (D : Discipline Tid St α) (t : Tid)
    (s : St) : Option (Prog Op Ans α) → Prop
  | none => D.idle t s
  | some p => ∃ P, Stable D t P ∧ P s ∧ Ok M D t p P (D.post t)

theorem Standing.stable {M : Machine Tid Op Ans St α}
    {D : Discipline Tid St α} (hD : Sound M D) {t : Tid} {s s' : St}
    {o : Option (Prog Op Ans α)} {u : Option Tid} (hu : u ≠ some t)
    (hi : D.inv s) (hi' : D.inv s') (hg : D.guar u s s')
    (h : Standing M D t s o) : Standing M D t s' o := by
  cases o with
  | none => exact hD.idle_stable t u s s' hu hi hi' hg h
  | some p =>
    obtain ⟨P, hst, hP, hok⟩ := h
    exact ⟨P, hst, hst u s s' hu hi hi' hg hP, hok⟩

/-- The configuration keeps the discipline: the invariant holds and every thread
stands where it may. -/
def Config.Kept (M : Machine Tid Op Ans St α) (D : Discipline Tid St α)
    (c : Config Tid Op Ans St α) : Prop :=
  D.inv c.st ∧ ∀ t, Standing M D t c.st (c.procs t)

section Soundness

variable [DecidableEq Tid] {M : Machine Tid Op Ans St α}
  {D : Discipline Tid St α}

variable {c : Config Tid Op Ans St α}

/-- A step of `u` that keeps the invariant and its guarantee leaves the other
threads standing. -/
theorem Config.Kept.update (hD : Sound M D)
    {u : Tid} {s' : St} {o : Option (Prog Op Ans α)} (hc : c.Kept M D)
    (hi : D.inv s') (hg : D.guar (some u) c.st s')
    (hu : Standing M D u s' o) :
    Config.Kept M D ⟨s', Function.update c.procs u o⟩ := by
  refine ⟨hi, fun t => ?_⟩
  change Standing M D t s' (Function.update c.procs u o t)
  by_cases htu : t = u
  · subst htu
    rw [Function.update_self]
    exact hu
  · rw [Function.update_of_ne htu]
    exact (hc.2 t).stable hD (fun h => htu (Option.some.inj h).symm) hc.1 hi hg

theorem Sound.step (hD : Sound M D) {c c' : Config Tid Op Ans St α}
    (hc : c.Kept M D) (h : Step M c c') : c'.Kept M D := by
  cases h with
  | @start t p s' hidle h =>
    have ht := hc.2 t
    rw [hidle] at ht
    obtain ⟨hi, hg, hP⟩ := hD.start t p c.st s' hc.1 ht h
    exact hc.update hD hi hg hP
  | @exec t op k a s' hrun h =>
    have ht := hc.2 t
    rw [hrun] at ht
    obtain ⟨P, _, hP, R, hstable, hstep, hrest⟩ := ht
    obtain ⟨hi, hg, hR⟩ := hstep c.st a s' hc.1 hP h
    exact hc.update hD hi hg ⟨R a, hstable a, hR, hrest a⟩
  | @finish t a s' hrun h =>
    have ht := hc.2 t
    rw [hrun] at ht
    obtain ⟨P, _, hP, hok⟩ := ht
    obtain ⟨hi, hg, hidle⟩ := hD.finish t a c.st s' hc.1 (hok c.st hc.1 hP) h
    exact hc.update hD hi hg hidle
  | @crash t p s' hrun h =>
    obtain ⟨hi, hg, hidle⟩ := hD.crash t c.st s' hc.1 h
    exact hc.update hD hi hg hidle
  | @env s' h =>
    obtain ⟨hi, hg⟩ := hD.env c.st s' hc.1 h
    exact ⟨hi, fun t => (hc.2 t).stable hD (by simp) hc.1 hi hg⟩

/-- A sound discipline that holds initially holds on every schedule. -/
theorem Sound.reach (hD : Sound M D) {init : St → Prop}
    (hinit : ∀ s, init s → D.inv s ∧ ∀ t, D.idle t s)
    (h : Reach M init c) : c.Kept M D := by
  induction h with
  | init hs => exact ⟨(hinit _ hs).1, (hinit _ hs).2⟩
  | step _ hstep ih => exact hD.step ih hstep

end Soundness

end Conc
