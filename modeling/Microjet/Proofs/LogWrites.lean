import Microjet.Lib.Run
import Microjet.Logx.Handlers

/-!
# Writes to the shared writer

The mutex keeps two calls on one handler apart, and nothing those on different handlers. So a
family is safe in every interleaving exactly if all calls of `Handle` are on one handler.
-/

namespace Microjet.Logx

open Trace Secretx
open Function (update update_self update_of_ne)

/-- It has the mutex. -/
def At.holds : At → Bool
  | .formatted _ => false
  | _ => true

namespace Family

variable {isPrint : Nat → Bool} {ρ : Secrets} {s s' : Family} {e : LogEvent} {g h : Nat}

/-- The steps, as a relation. -/
inductive Moves (s : Family) : LogEvent → Family → Prop where
  | derive {parent : Nat} {d : Derivation} (handlers : List PlainTextHandler) :
      Moves s (.derive parent d) { s with handlers }
  | handle {g handler : Nat} {r : Record} (buf : GoString) (hg : s.goroutines g = none) :
      Moves s (.handle g handler r) (s.goto g ⟨handler, .formatted buf⟩)
  | lock {g handler : Nat} {buf : GoString}
      (hg : s.goroutines g = some ⟨handler, .formatted buf⟩) (hfree : s.mu handler = none) :
      Moves s (.lock g)
        { s.goto g ⟨handler, .locked buf⟩ with mu := update s.mu handler (some g) }
  | write {g handler : Nat} {buf : GoString}
      (hg : s.goroutines g = some ⟨handler, .locked buf⟩) :
      Moves s (.write g) (s.goto g ⟨handler, .writing buf⟩)
  | wrote {g handler : Nat} {buf : GoString}
      (hg : s.goroutines g = some ⟨handler, .writing buf⟩) :
      Moves s (.wrote g) { s.goto g ⟨handler, .written⟩ with output := s.output ++ [buf] }
  | ret {g handler : Nat} (hg : s.goroutines g = some ⟨handler, .written⟩) :
      Moves s (.ret g) { s.exit g with mu := update s.mu handler none }

theorem step_moves (hstep : s.step isPrint ρ e = some s') : Moves s e s' := by
  cases e with
  | derive parent d =>
    simp only [step] at hstep
    split at hstep
    · cases hstep
      exact .derive _
    · cases hstep
  | handle g handler r =>
    simp only [step] at hstep
    split at hstep
    · next hg _ =>
        cases hstep
        exact .handle _ hg
    · cases hstep
  | lock g =>
    simp only [step] at hstep
    split at hstep
    · next hg =>
        split at hstep
        · cases hstep
        · next hfree =>
            cases hstep
            exact .lock hg (Option.not_isSome_iff_eq_none.mp hfree)
    · cases hstep
  | write g =>
    simp only [step] at hstep
    split at hstep
    · next hg =>
        cases hstep
        exact .write hg
    · cases hstep
  | wrote g =>
    simp only [step] at hstep
    split at hstep
    · next hg =>
        cases hstep
        exact .wrote hg
    · cases hstep
  | ret g =>
    simp only [step] at hstep
    split at hstep
    · next hg =>
        cases hstep
        exact .ret hg
    · cases hstep

/-- Whoever is past the lock holds it. -/
def Sound (s : Family) : Prop :=
  ∀ g c, s.goroutines g = some c → c.place.holds = true → s.mu c.handler = some g

theorem sound_new : new.Sound := fun _ _ h => absurd h (Option.some_ne_none _).symm

theorem goroutines_goto {g' : Nat} {c c' : Call} (h : (s.goto g c).goroutines g' = some c') :
    g' = g ∧ c' = c ∨ g' ≠ g ∧ s.goroutines g' = some c' := by
  have h : update s.goroutines g (some c) g' = some c' := h
  by_cases hg : g' = g
  · subst hg
    rw [update_self] at h
    exact .inl ⟨rfl, (Option.some.inj h).symm⟩
  · rw [update_of_ne hg] at h
    exact .inr ⟨hg, h⟩

theorem goroutines_exit {g' : Nat} {c' : Call} (h : (s.exit g).goroutines g' = some c') :
    g' ≠ g ∧ s.goroutines g' = some c' := by
  have h : update s.goroutines g none g' = some c' := h
  have hg : g' ≠ g := by
    rintro rfl
    rw [update_self] at h
    cases h
  rw [update_of_ne hg] at h
  exact ⟨hg, h⟩

theorem Sound.goto {c d : Call} (hs : s.Sound) (hg : s.goroutines g = some c)
    (hholds : c.place.holds = true) (hd : d.handler = c.handler) : (s.goto g d).Sound := by
  intro g' c' hc' hholds'
  rcases goroutines_goto hc' with ⟨rfl, rfl⟩ | ⟨-, hc'⟩
  · rw [hd]
    exact hs g' c hg hholds
  · exact hs g' c' hc' hholds'

theorem Sound.moves (hs : s.Sound) (hmoves : Moves s e s') : s'.Sound := by
  cases hmoves with
  | derive handlers => exact hs
  | handle buf hg =>
    intro g' c' hc' hholds
    rcases goroutines_goto hc' with ⟨-, rfl⟩ | ⟨-, hc'⟩
    · cases hholds
    · exact hs g' c' hc' hholds
  | @lock g handler buf hg hfree =>
    intro g' c' hc' hholds
    show update s.mu handler (some g) c'.handler = some g'
    rcases goroutines_goto hc' with ⟨rfl, rfl⟩ | ⟨-, hc'⟩
    · exact update_self ..
    · have hmu := hs g' c' hc' hholds
      have hne : c'.handler ≠ handler := by
        rintro rfl
        rw [hfree] at hmu
        cases hmu
      rw [update_of_ne hne]
      exact hmu
  | write hg => exact hs.goto hg rfl rfl
  | wrote hg => exact hs.goto hg rfl rfl
  | @ret g handler hg =>
    intro g' c' hc' hholds
    show update s.mu handler none c'.handler = some g'
    obtain ⟨hne, hc'⟩ := goroutines_exit hc'
    have hmu := hs g' c' hc' hholds
    have hne' : c'.handler ≠ handler := by
      intro heq
      have hmu' := hs g _ hg rfl
      rw [heq, hmu'] at hmu
      exact hne (Option.some.inj hmu).symm
    rw [update_of_ne hne']
    exact hmu

/-- The handler it writes for. -/
def writes (s : Family) (g : Nat) : Option Nat :=
  match s.goroutines g with
  | some ⟨handler, .writing _⟩ => some handler
  | _ => none

/-- At most one `Write` is in progress. -/
def Serialized (s : Family) : Prop :=
  ∀ g g', (s.writes g).isSome → (s.writes g').isSome → g = g'

/-- A `Write` begins while there is none on another handler. -/
def Alone (s : Family) : LogEvent → Prop
  | .write g => ∀ c, s.goroutines g = some c → ∀ g' h, s.writes g' = some h → h = c.handler
  | _ => True

theorem writes_eq_some : s.writes g = some h ↔ ∃ buf, s.goroutines g = some ⟨h, .writing buf⟩ := by
  rw [writes]
  split
  · next handler buf hg =>
      rw [hg]
      simp
  · next hne =>
      refine ⟨fun h => absurd h.symm (Option.some_ne_none _), fun ⟨buf, hg⟩ => ?_⟩
      exact absurd hg (hne h buf)

theorem Moves.writes {g' : Nat} (hmoves : Moves s e s') (hg : s'.writes g' = some h) :
    s.writes g' = some h ∨
      e = .write g' ∧ ∃ buf, s.goroutines g' = some ⟨h, .locked buf⟩ := by
  obtain ⟨buf, hg⟩ := writes_eq_some.mp hg
  have hbefore (hbefore : s.goroutines g' = some ⟨h, .writing buf⟩) : s.writes g' = some h :=
    writes_eq_some.mpr ⟨buf, hbefore⟩
  cases hmoves with
  | derive handlers => exact .inl (hbefore hg)
  | handle buf' _ =>
    rcases goroutines_goto hg with ⟨-, heq⟩ | ⟨-, hg⟩
    · cases heq
    · exact .inl (hbefore hg)
  | lock _ _ =>
    rcases goroutines_goto hg with ⟨-, heq⟩ | ⟨-, hg⟩
    · cases heq
    · exact .inl (hbefore hg)
  | write hlocked =>
    rcases goroutines_goto hg with ⟨rfl, heq⟩ | ⟨-, hg⟩
    · cases heq
      exact .inr ⟨rfl, buf, hlocked⟩
    · exact .inl (hbefore hg)
  | wrote _ =>
    rcases goroutines_goto hg with ⟨-, heq⟩ | ⟨-, hg⟩
    · cases heq
    · exact .inl (hbefore hg)
  | ret _ => exact .inl (hbefore (goroutines_exit hg).2)

theorem Serialized.moves (hser : s.Serialized) (hmoves : Moves s e s')
    (he : ∀ g, e ≠ .write g) : s'.Serialized := by
  have hold (g) (hg : (s'.writes g).isSome) : (s.writes g).isSome := by
    obtain ⟨h, hh⟩ := Option.isSome_iff_exists.mp hg
    rcases hmoves.writes hh with hh | ⟨heq, -⟩
    · rw [hh]
      rfl
    · exact absurd heq (he g)
  exact fun g g' hg hg' => hser g g' (hold g hg) (hold g' hg')

theorem serialized_write {handler : Nat} {buf : GoString} (hs : s.Sound)
    (hg : s.goroutines g = some ⟨handler, .locked buf⟩) :
    (s.goto g ⟨handler, .writing buf⟩).Serialized ↔ s.Alone (.write g) := by
  have hnew : (s.goto g ⟨handler, .writing buf⟩).writes g = some handler :=
    writes_eq_some.mpr ⟨buf, update_self ..⟩
  constructor
  · intro hser c _ g' h hg'
    -- another writer would still be one
    obtain ⟨buf', hbuf'⟩ := writes_eq_some.mp hg'
    have hne : g' ≠ g := by
      rintro rfl
      cases hbuf'.symm.trans hg
    have hold : (s.goto g ⟨handler, .writing buf⟩).writes g' = some h :=
      writes_eq_some.mpr ⟨buf', (update_of_ne hne ..).trans hbuf'⟩
    refine absurd (hser g' g ?_ ?_) hne
    · rw [hold]
      rfl
    · rw [hnew]
      rfl
  · intro halone
    have honly (g') (hg' : ((s.goto g ⟨handler, .writing buf⟩).writes g').isSome) : g' = g := by
      obtain ⟨h, hh⟩ := Option.isSome_iff_exists.mp hg'
      rcases (Moves.write hg).writes hh with hold | ⟨heq, -⟩
      · obtain ⟨_, hbuf'⟩ := writes_eq_some.mp hold
        obtain rfl : h = handler := halone _ hg g' h hold
        have hmu := hs g _ hg rfl
        have hmu' := hs g' _ hbuf' rfl
        exact Option.some.inj (hmu'.symm.trans hmu)
      · cases heq
        rfl
    exact fun g₁ g₂ h₁ h₂ => (honly g₁ h₁).trans (honly g₂ h₂).symm

theorem serialized_iff_alone (hs : s.Sound) (hser : s.Serialized) (hmoves : Moves s e s') :
    s'.Serialized ↔ s.Alone e := by
  cases e with
  | write g =>
    cases hmoves with
    | write hg => exact serialized_write hs hg
  | _ => exact iff_of_true (hser.moves hmoves nofun) trivial

/-! ### Calls on one handler -/

def Uses (H : Nat → Prop) : LogEvent → Prop
  | .handle _ handler _ => H handler
  | _ => True

/-- Only these handlers are in use. -/
def Within (H : Nat → Prop) (s : Family) : Prop :=
  ∀ g c, s.goroutines g = some c → H c.handler

theorem Within.moves {H : Nat → Prop} (hs : s.Within H) (he : Uses H e) (hmoves : Moves s e s') :
    s'.Within H := by
  have hgoto {g handler : Nat} {place : At} (h : H handler) :
      (s.goto g ⟨handler, place⟩).Within H := by
    intro g' c' hc'
    rcases goroutines_goto hc' with ⟨-, rfl⟩ | ⟨-, hc'⟩
    · exact h
    · exact hs g' c' hc'
  cases hmoves with
  | derive handlers => exact hs
  | handle buf hg => exact hgoto he
  | lock hg hfree => exact hgoto (hs _ _ hg)
  | write hg => exact hgoto (hs _ _ hg)
  | wrote hg => exact hgoto (hs _ _ hg)
  | ret hg => exact fun g' c' hc' => hs g' c' (goroutines_exit hc').2

theorem Within.alone {H : Nat → Prop} (hs : s.Within H) (hH : ∀ h h', H h → H h' → h = h')
    (e : LogEvent) : s.Alone e := by
  cases e with
  | write g =>
    intro c hc g' h hg'
    obtain ⟨_, hbuf⟩ := writes_eq_some.mp hg'
    exact hH _ _ (hs g' _ hbuf) (hs g c hc)
  | _ => trivial

/-! ### Calls on two handlers -/

section Overlap

variable (isPrint : Nat → Bool) (ρ : Secrets)

theorem run_derive (n : Nat) (s : Family) (hs : s.handlers ≠ []) :
    ∃ handlers, handlers.length = s.handlers.length + n ∧
      run (step isPrint ρ) s (List.replicate n (.derive 0 (.withAttrs []))) =
        some { s with handlers } := by
  induction n generalizing s with
  | zero => exact ⟨s.handlers, rfl, rfl⟩
  | succ n ih =>
    obtain ⟨h, rest, heq⟩ := List.exists_cons_of_ne_nil hs
    obtain ⟨handlers, hlen, hrun⟩ :=
      ih { s with handlers := s.handlers ++ [h.derive (.withAttrs [])] }
        (List.append_ne_nil_of_left_ne_nil hs _)
    refine ⟨handlers, ?_, ?_⟩
    · rw [hlen, List.length_append, List.length_singleton]
      omega
    · rw [List.replicate_succ, run_cons]
      refine ⟨_, ?_, hrun⟩
      simp only [step, heq, List.getElem?_cons_zero]

def overlap (h h' : Nat) (r : Record) : List LogEvent :=
  [.handle 0 h r, .handle 1 h' r, .lock 0, .lock 1, .write 0, .write 1]

theorem run_overlap {h h' : Nat} (hne : h ≠ h') (r : Record) (handlers : List PlainTextHandler)
    (hh : h < handlers.length) (hh' : h' < handlers.length) :
    ∃ s, run (step isPrint ρ) { new with handlers } (overlap h h' r) = some s ∧
      s.writes 0 = some h ∧ s.writes 1 = some h' := by
  have hget := List.getElem?_eq_getElem hh
  have hget' := List.getElem?_eq_getElem hh'
  simp [overlap, run, step, goto, new, hget, hget', update, hne.symm, writes]

theorem serialized_new : new.Serialized := fun _ _ h => absurd h Bool.false_ne_true

/-- The writes of a run are serialized exactly if each begins while there is none on another
handler, and in every interleaving exactly if all calls are on one handler. -/
theorem writes_serialized_iff (isPrint : Nat → Bool) (ρ : Secrets) :
    (∀ es s, run (step isPrint ρ) new es = some s →
      (Always (step isPrint ρ) Serialized new es ↔ Along (step isPrint ρ) Alone new es)) ∧
    ∀ H : Nat → Prop,
      (∀ es s, run (step isPrint ρ) new es = some s → (∀ e ∈ es, Uses H e) →
        Always (step isPrint ρ) Serialized new es) ↔
      ∀ h h', H h → H h' → h = h' := by
  have hiff (es s) (hrun : run (step isPrint ρ) new es = some s) :
      Always (step isPrint ρ) Serialized new es ↔ Along (step isPrint ρ) Alone new es :=
    always_iff_along (I := Sound) (P := Serialized) (C := Alone)
      (fun s e s' hs hstep => hs.moves (step_moves hstep))
      (fun s e s' hs hser hstep => serialized_iff_alone hs hser (step_moves hstep))
      sound_new serialized_new hrun
  refine ⟨hiff, fun H => ⟨fun hsafe h h' hh hh' => ?_, fun hH es s hrun huses => ?_⟩⟩
  · -- enough handlers for both, and then a call on each
    by_contra hne
    let r : Record := ⟨⟨1970, 1, 1, 0, 0, 0, 0⟩, 0, [], []⟩
    obtain ⟨handlers, hlen, hderive⟩ := run_derive isPrint ρ (h + h') new (List.cons_ne_nil _ _)
    have hlen : handlers.length = 1 + (h + h') := hlen
    obtain ⟨s, hoverlap, hw, hw'⟩ :=
      run_overlap isPrint ρ hne r handlers (by omega) (by omega)
    have hrun := run_append.mpr ⟨_, hderive, hoverlap⟩
    have hlast := (hsafe _ s hrun ?_).last hrun
    · exact absurd (hlast 0 1 (by rw [hw]; rfl) (by rw [hw']; rfl)) (by decide)
    · intro e he
      rcases List.mem_append.mp he with he | he
      · rw [List.eq_of_mem_replicate he]
        trivial
      · simp only [overlap, List.mem_cons, List.not_mem_nil, or_false] at he
        rcases he with rfl | rfl | rfl | rfl | rfl | rfl
        exacts [hh, hh', trivial, trivial, trivial, trivial]
  · refine (hiff es s hrun).mpr ?_
    refine Along.of_inv (I := Within H) (fun s e s' hs he hstep => hs.moves he (step_moves hstep))
      (fun s e hs _ => hs.alone hH e) ?_ (along_of_mem huses)
    exact fun g c hc => absurd hc (Option.some_ne_none c).symm

/-- Two handlers write at once. -/
theorem two_writes_at_once :
    let r : Record := ⟨⟨2026, 1, 2, 3, 4, 5, 6⟩, 0, bytes "hello", []⟩
    let es := LogEvent.derive 0 (.withGroup (bytes "g")) :: overlap 0 1 r
    (run (step (fun _ => true) fun _ => []) new es).map (fun s => (s.writes 0, s.writes 1)) =
      some (some 0, some 1) := by
  rfl

end Overlap

end Family

end Microjet.Logx
