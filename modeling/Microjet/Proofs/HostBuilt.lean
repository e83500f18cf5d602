import Microjet.Lib.Log
import Microjet.Proofs.HostPhases

/-!
# What has been called on a service before its Start

A value that is put under a key after `initServices` has done it is set up and started without
having been configured and initialized. `Timely` excludes this: then whatever is started has
been through the other hooks, in their order, and each has returned nil.
-/

namespace Microjet.Host

open Errorx

variable {K I H W : Type}

/-- The calls and returns of these phases. -/
def trail (svc : I → Service) (k : K) (i : I) (ps : List Phase) : List (Note K I H W) :=
  (ps.filter (svc i).has).flatMap fun p => [.returned p k i none, .called p k i]

theorem trail_cons_of_not {svc : I → Service} {k : K} {i : I} {p : Phase} {ps : List Phase}
    (h : (svc i).has p = false) :
    (trail svc k i (p :: ps) : List (Note K I H W)) = trail svc k i ps := by
  rw [trail, List.filter_cons_of_neg (by rw [h]; exact Bool.false_ne_true), ← trail]

theorem trail_cons_of_has {svc : I → Service} {k : K} {i : I} {p : Phase} {ps : List Phase}
    (h : (svc i).has p = true) :
    (trail svc k i (p :: ps) : List (Note K I H W)) =
      .returned p k i none :: .called p k i :: trail svc k i ps := by
  rw [trail, List.filter_cons_of_pos h, List.flatMap_cons, ← trail]
  rfl

/-! ### How far a key has come -/

/-- The phases that are over for a key. -/
def Starting.passed [DecidableEq K] : Starting K I H W → K → List Phase
  | .initing r _, k => r.passed k
  | .setting todo _, k => if k ∈ todo then [.init, .config] else [.setup, .init, .config]
  | .draining _, _ => [.setup, .init, .config]
  | .starting _ _, _ => [.setup, .init, .config]
  | _, _ => []

/-- The hook that is running. -/
def Starting.building : Starting K I H W → Option (Phase × K × I)
  | .initing r (some (k, i)) => some (r.pass.phase, k, i)
  | .setting _ (some (k, i)) => some (.setup, k, i)
  | _ => none

/-- What is under a key has been through the phases passed. -/
structure Starting.Built [DecidableEq K] (svc : I → Service) (load : K → Option I)
    (log : List (Note K I H W)) (c : Starting K I H W) : Prop where
  done : ∀ k i, load k = some i → c.Pending .start k → (∀ p, c.building ≠ some (p, k, i)) →
    (trail svc k i (c.passed k)).Sublist log
  building : ∀ p k i, c.building = some (p, k, i) → load k = some i ∧ (svc i).has p = true ∧
    ∃ ps, c.passed k = p :: ps ∧ (.called p k i :: trail svc k i ps).Sublist log

section

variable [DecidableEq K] {svc : I → Service} {load : K → Option I} {log : List (Note K I H W)}
  {c : Starting K I H W} {k j : K} {i : I} {todo : List K} {busy : Option (K × I)}

theorem Starting.Built.note (h : c.Built svc load log) (n : Note K I H W) :
    c.Built svc load (n :: log) where
  done := fun k i hk hp hb => (h.done k i hk hp hb).cons n
  building := fun p k i hb => by
    obtain ⟨hk, hhas, ps, hps, hsub⟩ := h.building p k i hb
    exact ⟨hk, hhas, ps, hps, hsub.cons n⟩

theorem Starting.built_of_over (hp : ∀ k, ¬c.Pending .start k) (hb : c.building = none) :
    c.Built svc load log where
  done := fun k _ _ hk => absurd hk (hp k)
  building := fun p k i h => by
    rw [hb] at h
    cases h

variable {c' : Starting K I H W}

theorem Starting.Built.move (h : c.Built svc load log)
    (hc : c.building = none) (hc' : c'.building = none)
    (hle : ∀ k, c'.Pending .start k → c.Pending .start k)
    (hpass : ∀ k i, load k = some i → c'.Pending .start k →
      (trail svc k i (c'.passed k) : List (Note K I H W)) = trail svc k i (c.passed k)) :
    c'.Built svc load log where
  done := fun k i hk hp _ => by
    rw [hpass k i hk hp]
    exact h.done k i hk (hle k hp) fun p hb => by rw [hc] at hb; cases hb
  building := fun p k i hb => by
    rw [hc'] at hb
    cases hb

theorem Starting.Built.enter (h : c.Built svc load log) : c.enter.Built svc load log := by
  cases c with
  | fresh => exact h.move rfl rfl (fun _ => id) fun _ _ _ _ => rfl
  | _ => exact h

theorem Starting.Built.call {p : Phase} (h : c.Built svc load log)
    (hc : c.building = none) (hc' : c'.building = some (p, k, i)) (hk : load k = some i)
    (hhas : (svc i).has p = true) (hp : ∀ j, c.Pending .start j)
    (hself : c'.passed k = p :: c.passed k) (hother : ∀ j, j ≠ k → c'.passed j = c.passed j) :
    c'.Built svc load (.called p k i :: log) where
  done := fun j x hj _ hb => by
    have hne : j ≠ k := by
      rintro rfl
      cases hk.symm.trans hj
      exact hb p hc'
    rw [hother j hne]
    exact (h.done j x hj (hp j) fun q hb => by rw [hc] at hb; cases hb).cons _
  building := fun q j x hb => by
    cases hc'.symm.trans hb
    refine ⟨hk, hhas, c.passed k, hself, ?_⟩
    exact (h.done k i hk (hp k) fun q hb => by rw [hc] at hb; cases hb).cons_cons _

theorem Starting.Built.ret {p : Phase} (h : c.Built svc load log)
    (hc : c.building = some (p, k, i)) (hc' : c'.building = none) (hp : ∀ j, c.Pending .start j)
    (hpass : ∀ j, c'.passed j = c.passed j) :
    c'.Built svc load (.returned p k i none :: log) where
  done := fun j x hj _ _ => by
    rw [hpass j]
    by_cases hb : ∃ q, c.building = some (q, j, x)
    · obtain ⟨q, hb⟩ := hb
      cases hc.symm.trans hb
      obtain ⟨-, hhas, ps, hps, hsub⟩ := h.building p k i hc
      rw [hps, trail_cons_of_has hhas]
      exact hsub.cons_cons _
    · exact (h.done j x hj (hp j) fun q hq => hb ⟨q, hq⟩).cons _
  building := fun q j x hb => by
    rw [hc'] at hb
    cases hb

theorem passed_setting_self (hnot : k ∉ todo) :
    (.setting todo busy : Starting K I H W).passed k =
      .setup :: (.setting (k :: todo) none : Starting K I H W).passed k := by
  simp only [Starting.passed, hnot, if_false, List.mem_cons, true_or, if_true]

theorem passed_setting_ne (hj : j ≠ k) :
    (.setting todo busy : Starting K I H W).passed j =
      (.setting (k :: todo) none : Starting K I H W).passed j := by
  simp only [Starting.passed, List.mem_cons, hj, false_or]

end

/-- A new value under the key will be built before it is started, or is not started. -/
def Starting.Open (keys : List K) : Starting K I H W → K → Prop
  | .initing r _, k => k ∉ r.configured ∧ (r.progressed = true ∨ k ∈ keys)
  | .setting _ _, _ => False
  | .draining _, _ => False
  | .starting todo _, k => k ∉ todo
  | _, _ => True

instance Starting.decidableOpen [DecidableEq K] (keys : List K) (c : Starting K I H W) (k : K) :
    Decidable (c.Open keys k) := by
  unfold Starting.Open
  split <;> infer_instance

section

variable [DecidableEq K] {svc : I → Service} {a : Container K I} {log : List (Note K I H W)}
  {c : Starting K I H W} {k : K} {i : I}

theorem Starting.Open.passed_nil (ho : c.Open a.keys k) (hr : c.RoundOk a.keys)
    (hp : c.Pending .start k) : c.passed k = [] := by
  cases c with
  | initing r busy =>
    have hinit : k ∉ r.initialized := fun hk => ho.1 (hr.sub k hk)
    simp only [Starting.passed, Round.passed, ho.1, hinit, if_false]
  | fresh | called => rfl
  | starting todo busy => exact absurd hp ho
  | setting | draining => exact ho.elim
  | _ => exact hp.elim

omit [DecidableEq K] in
theorem Starting.pending_of_building {x : Phase × K × I} (h : c.building = some x) (j : K) :
    c.Pending .start j := by
  unfold Starting.building at h
  split at h
  next => trivial
  next => trivial
  next => cases h

theorem Starting.Built.provide (h : c.Built svc a.load log) (hr : c.RoundOk a.keys)
    (ht : a.load k = some i ∨ c.Open a.keys k) : c.Built svc (a.storeKey k i).load log where
  done := fun j x hj hp hb => by
    rw [Container.load_storeKey] at hj
    split at hj
    next hjk =>
      subst hjk
      cases hj
      rcases ht with hi | ho
      · exact h.done j i hi hp hb
      · rw [ho.passed_nil hr hp]
        exact List.nil_sublist log
    next => exact h.done j x hj hp hb
  building := fun p j x hb => by
    obtain ⟨hj, hhas, ps, hps, hsub⟩ := h.building p j x hb
    refine ⟨?_, hhas, ps, hps, hsub⟩
    rw [Container.load_storeKey]
    split
    next hjk =>
      subst hjk
      rcases ht with hi | ho
      · exact hi.symm.trans hj
      · cases (ho.passed_nil hr (pending_of_building hb j)).symm.trans hps
    next => exact hj

end

namespace Runtime

/-- A key still to be started gets a value only while `initServices` will come to it. -/
def Timely (s : Runtime K I H W) : Event K I H W → Prop
  | .act _ (.provide k i) =>
    s.app.container.load k = some i ∨ s.start.Open s.app.container.keys k
  | _ => True

instance decidableTimely [DecidableEq K] [DecidableEq I] (s : Runtime K I H W) :
    (e : Event K I H W) → Decidable (s.Timely e)
  | .act _ (.provide _ _) => inferInstanceAs (Decidable (_ ∨ _))
  | .act _ (.setup _) | .act _ (.withWorker _) | .act _ (.fail _) | .act _ (.call _)
  | .act _ (.ret _) | .go _ | .closed _ | .shutdown | .expire _ | .workerDone | .shutdownCh
  | .fatal _ | .exit _ | .ctxDone => .isTrue trivial

theorem Timely.noLateKey {s : Runtime K I H W} {e : Event K I H W} (h : s.Timely e) :
    s.NoLateKey e := by
  unfold Timely at h
  unfold NoLateKey
  split
  next k i =>
    intro r busy hc hp
    rcases h with hi | hopen
    · exact (s.app.container.mem_keys k).mpr (by rw [hi]; rfl)
    · rw [hc] at hopen
      exact hopen.2.resolve_left (by rw [hp]; exact Bool.false_ne_true)
  next => trivial

section

variable [DecidableEq K] [DecidableEq I] {svc : I → Service} {s s' : Runtime K I H W}
  {c : Starting K I H W}

theorem StartMoves.built (hs : c.Built svc s.app.container.load s.log) (hd : c.Distinct)
    (hf : c.Flagged s.app) (hr : c.RoundOk s.app.container.keys) (h : StartMoves svc s c s') :
    s'.start.Built svc s'.app.container.load s'.log := by
  cases h with
  -- the flags are set only after their rounds, so neither round is skipped
  | skipInit hi | skipBoth hi => exact absurd (hf.1.symm.trans hi) Bool.false_ne_true
  | endInitSkip htodo hnext hset => exact absurd (hf.2.1.symm.trans hset) Bool.false_ne_true
  | beginInit => exact hs.move rfl rfl (fun _ _ => trivial) fun k i _ _ => rfl
  | passOver htodo hskip => exact hs.move rfl rfl (fun _ => id) fun k i _ _ => rfl
  | @visit r k todo i htodo hi hdue hhas =>
    refine (hs.note _).move rfl rfl (fun _ => id) fun j x hj _ => ?_
    show trail svc j x (Round.passed { r.mark k with todo } j) = trail svc j x (r.passed j)
    by_cases hjk : j = k
    · subst hjk
      cases hi.symm.trans hj
      rw [Round.passed_mark_self hr.sub hdue, trail_cons_of_not hhas]
    · rw [Round.passed_mark_ne hjk]
  | @callInit r k todo i htodo hi hdue hhas =>
    have hphase : (r.mark k).pass.phase = r.pass.phase := by rw [Round.mark_pass]
    exact (hs.note _).call rfl (congrArg (fun p => some (p, k, i)) hphase) hi hhas
      (fun _ => trivial) (Round.passed_mark_self hr.sub hdue) fun j => Round.passed_mark_ne
  | @nextPass r r' htodo hnext =>
    obtain ⟨hconf, hinit, -⟩ := Round.next_eq hnext
    refine hs.move rfl rfl (fun _ => id) fun k i _ _ => ?_
    simp only [Starting.passed, Round.passed, hconf, hinit]
  | endInit htodo hnext hset =>
    refine hs.move rfl rfl (fun _ => id) fun k i hk _ => ?_
    have hmem : k ∈ s.app.container.keys := (s.app.container.mem_keys k).mpr (by rw [hk]; rfl)
    obtain ⟨-, hinit⟩ := hr.complete htodo hnext k hmem
    simp only [Starting.passed, Round.passed, hmem, hinit, if_true]
  | initReturned => exact hs.ret rfl rfl (fun _ => trivial) fun _ => rfl
  | @skipSetup k todo hp =>
    refine hs.move rfl rfl (fun _ => id) fun j x hj _ => ?_
    by_cases hjk : j = k
    · subst hjk
      rw [passed_setting_self (List.nodup_cons.mp hd).1, trail_cons_of_not (hp x hj)]
    · rw [passed_setting_ne hjk]
  | callSetup hi hhas =>
    exact hs.call rfl rfl hi hhas (fun _ => trivial)
      (passed_setting_self (List.nodup_cons.mp hd).1) fun j => passed_setting_ne
  | endSetup =>
    refine hs.move rfl rfl (fun _ => id) fun k i _ _ => ?_
    rfl
  | setupReturned => exact hs.ret rfl rfl (fun _ => trivial) fun _ => rfl
  | handler | handlerReturned =>
    exact (hs.note _).move rfl rfl (fun _ => id) fun _ _ _ _ => rfl
  | endDrain => exact hs.move rfl rfl (fun _ _ => trivial) fun _ _ _ _ => rfl
  | skipStart => exact hs.move rfl rfl (fun _ => List.mem_cons_of_mem _) fun _ _ _ _ => rfl
  | callStart =>
    exact (hs.note _).move rfl rfl (fun _ => List.mem_cons_of_mem _) fun _ _ _ _ => rfl
  | startReturned => exact (hs.note _).move rfl rfl (fun _ => id) fun _ _ _ _ => rfl
  | _ => exact Starting.built_of_over (fun _ => id) rfl

/-- What is started has been through the other hooks. -/
def StartsBuilt (svc : I → Service) (n : Note K I H W) (older : List (Note K I H W)) : Prop :=
  ∀ k i, n = .called .start k i → (trail svc k i [.setup, .init, .config]).Sublist older

theorem StartMoves.startsBuilt (hlog : Log.Each (StartsBuilt svc) s.log)
    (hs : c.Built svc s.app.container.load s.log) (h : StartMoves svc s c s') :
    Log.Each (StartsBuilt svc) s'.log := by
  cases h with
  | @callInit r k todo i htodo hi hdue hhas =>
    refine ⟨fun j x hjx => ?_, nofun, hlog⟩
    cases hp : r.pass <;> rw [hp] at hjx <;> cases hjx
  | callStart hi hhas =>
    refine ⟨fun j x hjx => ?_, hlog⟩
    cases hjx
    exact hs.done _ _ hi List.mem_cons_self nofun
  | visit | initReturned | initFailed | callSetup | setupReturned | setupFailed | handler
  | handlerReturned | handlerFailed | startReturned | startFailed | launch | launchService =>
    exact ⟨nofun, hlog⟩
  | _ => exact hlog

/-- The invariant. -/
structure BuiltInv (svc : I → Service) (s : Runtime K I H W) : Prop where
  once : s.OnceInv
  phase : s.PhaseInv
  built : s.start.Built svc s.app.container.load s.log
  log : Log.Each (StartsBuilt svc) s.log

theorem BuiltInv.step [DecidableEq W] {e : Event K I H W} (hs : s.BuiltInv svc) (hC : s.Timely e)
    (h : s.step svc e = some s') : s'.BuiltInv svc := by
  have honce := hs.once.step h
  have hphase := hs.phase.step hC.noLateKey h
  have hb := hs.built
  have hlog := hs.log
  cases moves h with
  | start hc hstack h =>
    subst hc
    exact ⟨honce, hphase, h.built hb hs.once.start.distinct hs.phase.flagged hs.phase.round,
      h.startsBuilt hlog hb⟩
  | close he hc h =>
    cases h with
    | callClose | closeReturned => exact ⟨honce, hphase, hb.note _, nofun, hlog⟩
    | _ => exact ⟨honce, hphase, hb, hlog⟩
  | provide => exact ⟨honce, hphase, (hb.provide hs.phase.round hC).note _, nofun, hlog⟩
  | call e =>
    cases e with
    | start => exact ⟨honce, hphase, hb.enter, hlog⟩
    | _ => exact ⟨honce, hphase, hb, hlog⟩
  | handlerReturned | handlerFailed | handler | answered =>
    exact ⟨honce, hphase, hb.note _, nofun, hlog⟩
  | _ => exact ⟨honce, hphase, hb, hlog⟩

end

end Runtime

end Microjet.Host
