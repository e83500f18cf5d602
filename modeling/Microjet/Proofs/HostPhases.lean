import Microjet.Proofs.HostOnce

/-!
# The order of the phases

The flags say how far `Start` has come (`Flagged`). A round of `initServices` that has found
nothing to do so far has every key behind it or ahead of it (`Covers`), so when it ends all keys
are initialized; for that, no new key may come in before the round has found anything.
-/

namespace Microjet.Host

open Errorx

variable {K I H W : Type}

/-- The flags agree with the place. -/
def Starting.Flagged (a : App K I H W) : Starting K I H W → Prop
  | .fresh =>
    a.isServiceInitialized = false ∧ a.isServiceSetup = false ∧ a.isServiceStarted = false
  | .called =>
    a.isServiceInitialized = false ∧ a.isServiceSetup = false ∧ a.isServiceStarted = false
  | .initing _ _ =>
    a.isServiceInitialized = false ∧ a.isServiceSetup = false ∧ a.isServiceStarted = false
  | .setting _ _ =>
    a.isServiceInitialized = true ∧ a.isServiceSetup = false ∧ a.isServiceStarted = false
  | .draining _ => a.isServiceInitialized = true ∧ a.isServiceStarted = false
  | .starting _ _ => a.isServiceInitialized = true
  | _ => True

variable {c : Starting K I H W}

theorem Starting.Flagged.enter {a : App K I H W} (h : c.Flagged a) :
    c.enter.Flagged a := by
  cases c <;> exact h

/-- Every key is done or still to come. -/
def Round.Covers (r : Round K) (keys : List K) : Prop :=
  match r.pass with
  | .config => ∀ k ∈ keys, k ∈ r.configured ∨ k ∈ r.todo
  | .init => ∀ k ∈ keys, k ∈ r.configured ∧ (k ∈ r.initialized ∨ k ∈ r.todo)

/-- What holds of a round. -/
structure Round.Ok (r : Round K) (busy : Option (K × I)) (keys : List K) : Prop where
  sub : ∀ k ∈ r.initialized, k ∈ r.configured
  busy : busy.isSome = true → r.progressed = true
  covers : r.progressed = false → r.Covers keys

section

variable {r r' : Round K} {busy : Option (K × I)} {k : K} {keys : List K}

theorem Round.ok_first : (Round.first keys).Ok (none : Option (K × I)) keys where
  sub := nofun
  busy := nofun
  covers := fun _ _ hk => .inr hk

theorem Round.mark_progressed : (r.mark k).progressed = true := by
  unfold Round.mark
  split <;> rfl

theorem Round.mark_pass : (r.mark k).pass = r.pass := by
  unfold Round.mark
  split <;> rfl

theorem Round.mark_number : (r.mark k).number = r.number := by
  unfold Round.mark
  split <;> rfl

theorem Round.mark_sub [DecidableEq K] (h : ∀ j ∈ r.initialized, j ∈ r.configured)
    (hdue : r.due k = true) : ∀ j ∈ (r.mark k).initialized, j ∈ (r.mark k).configured := by
  unfold Round.mark
  intro j hj
  obtain ⟨hp, -⟩ | ⟨hp, -, hconf⟩ := Round.due_cases hdue
  · rw [hp] at hj ⊢
    exact List.mem_cons_of_mem k (h j hj)
  · rw [hp] at hj ⊢
    rcases List.mem_cons.mp hj with rfl | hj
    · exact hconf
    · exact h j hj

variable {todo : List K}

theorem Round.Ok.mark [DecidableEq K] (h : r.Ok busy keys)
    (hdue : r.due k = true) (busy' : Option (K × I)) :
    ({ r.mark k with todo } : Round K).Ok busy' keys where
  sub := Round.mark_sub h.sub hdue
  busy := fun _ => Round.mark_progressed
  covers := fun hp => by
    rw [show ({ r.mark k with todo } : Round K).progressed = true from
      Round.mark_progressed] at hp
    cases hp

theorem Round.Ok.passOver [DecidableEq K] (h : r.Ok busy keys)
    (htodo : r.todo = k :: todo) (hskip : k ∉ keys ∨ r.due k = false) :
    ({ r with todo } : Round K).Ok busy keys where
  sub := h.sub
  busy := h.busy
  covers := fun hp => by
    have hcov := h.covers hp
    unfold Round.Covers at hcov ⊢
    cases hpass : r.pass with
    | config =>
      simp only [hpass, htodo] at hcov ⊢
      intro j hj
      rcases hcov j hj with hdone | hmem
      · exact .inl hdone
      · rcases List.mem_cons.mp hmem with rfl | hmem
        · have hdue := hskip.resolve_left (not_not_intro hj)
          simp only [Round.due, hpass, decide_not, Bool.not_eq_false', decide_eq_true_eq] at hdue
          exact .inl hdue
        · exact .inr hmem
    | init =>
      simp only [hpass, htodo] at hcov ⊢
      intro j hj
      obtain ⟨hconf, hdone | hmem⟩ := hcov j hj
      · exact ⟨hconf, .inl hdone⟩
      · rcases List.mem_cons.mp hmem with rfl | hmem
        · have hdue := hskip.resolve_left (not_not_intro hj)
          simp only [Round.due, hpass, hconf, decide_true, Bool.and_true, decide_not,
            Bool.not_eq_false', decide_eq_true_eq] at hdue
          exact ⟨hconf, .inl hdue⟩
        · exact ⟨hconf, .inr hmem⟩

theorem Round.Ok.next (h : r.Ok busy keys) (htodo : r.todo = [])
    (hnext : r.next keys = some r') : r'.Ok (none : Option (K × I)) keys where
  sub := by
    obtain ⟨hconf, hinit, -⟩ := Round.next_eq hnext
    rw [hconf, hinit]
    exact h.sub
  busy := nofun
  covers := fun hp => by
    unfold Round.next at hnext
    split at hnext
    next hpass =>
      cases hnext
      have hcov := h.covers hp
      simp only [Round.Covers, hpass, htodo] at hcov
      exact fun k hk => ⟨(hcov k hk).resolve_right List.not_mem_nil, .inr hk⟩
    next =>
      obtain ⟨-, hnext⟩ := Option.ite_none_right_eq_some.mp hnext
      cases hnext
      exact fun k hk => .inr hk

theorem Round.Ok.complete (h : r.Ok busy keys) (htodo : r.todo = [])
    (hnext : r.next keys = none) : ∀ k ∈ keys, k ∈ r.configured ∧ k ∈ r.initialized := by
  unfold Round.next at hnext
  split at hnext
  next => cases hnext
  next hpass =>
    have hp : r.progressed = false := by
      cases hp : r.progressed with
      | false => rfl
      | true =>
        rw [hp, if_pos rfl] at hnext
        cases hnext
    have hcov := h.covers hp
    simp only [Round.Covers, hpass, htodo] at hcov
    exact fun k hk => ⟨(hcov k hk).1, (hcov k hk).2.resolve_right List.not_mem_nil⟩

/-- The passes that are over for a key. -/
def Round.passed [DecidableEq K] (r : Round K) (k : K) : List Phase :=
  if k ∈ r.initialized then [.init, .config] else if k ∈ r.configured then [.config] else []

theorem Round.passed_mark_self [DecidableEq K]
    (hsub : ∀ j ∈ r.initialized, j ∈ r.configured) (hdue : r.due k = true) :
    ({ r.mark k with todo } : Round K).passed k = r.pass.phase :: r.passed k := by
  unfold Round.mark
  obtain ⟨hp, hconf⟩ | ⟨hp, hinit, hconf⟩ := Round.due_cases hdue
  · have hinit : k ∉ r.initialized := fun hk => hconf (hsub k hk)
    rw [hp]
    simp only [Round.passed, hconf, hinit, if_false, List.mem_cons, true_or, if_true]
    rfl
  · rw [hp]
    simp only [Round.passed, hconf, hinit, if_false, List.mem_cons, true_or, if_true]
    rfl

theorem Round.passed_mark_ne [DecidableEq K] {j : K} (hj : j ≠ k) :
    ({ r.mark k with todo } : Round K).passed j = r.passed j := by
  unfold Round.mark
  cases r.pass with
  | config => simp only [Round.passed, List.mem_cons, hj, false_or]
  | init => simp only [Round.passed, List.mem_cons, hj, false_or]

theorem Round.Ok.rekey {keys' : List K} (h : r.Ok busy keys)
    (hkeys : r.progressed = false → keys' = keys) : r.Ok busy keys' where
  sub := h.sub
  busy := h.busy
  covers := fun hp => by
    rw [hkeys hp]
    exact h.covers hp

end

/-- It holds of the running round. -/
def Starting.RoundOk (keys : List K) : Starting K I H W → Prop
  | .initing r busy => r.Ok busy keys
  | _ => True

theorem Starting.RoundOk.enter {keys : List K} (h : c.RoundOk keys) : c.enter.RoundOk keys := by
  cases c with
  | fresh => trivial
  | _ => exact h

namespace Runtime

/-- The invariant. -/
structure PhaseInv (s : Runtime K I H W) : Prop where
  flagged : s.start.Flagged s.app
  round : s.start.RoundOk s.app.container.keys

/-- No key comes in before the round has found anything. -/
def NoLateKey (s : Runtime K I H W) : Event K I H W → Prop
  | .act _ (.provide k _) =>
    ∀ r busy, s.start = .initing r busy → r.progressed = false → k ∈ s.app.container.keys
  | _ => True

section

variable [DecidableEq K] [DecidableEq I] {svc : I → Service} {s s' : Runtime K I H W}
  {c : Starting K I H W}

theorem StartMoves.flagged (hs : c.Flagged s.app) (h : StartMoves svc s c s') :
    s'.start.Flagged s'.app := by
  cases h with
  | skipInit hi | skipBoth hi => exact absurd (hs.1.symm.trans hi) Bool.false_ne_true
  | endInitSkip htodo hnext hset => exact absurd (hs.2.1.symm.trans hset) Bool.false_ne_true
  | endInit => exact ⟨rfl, hs.2⟩
  | endSetup => exact ⟨hs.1, hs.2.2⟩
  | endDrain => exact hs.1
  | beginInit | passOver | visit | callInit | nextPass | initReturned | skipSetup | callSetup
  | setupReturned | handler | handlerReturned | skipStart | callStart | startReturned => exact hs
  | _ => trivial

theorem StartMoves.roundOk (hs : c.RoundOk s.app.container.keys) (h : StartMoves svc s c s') :
    s'.start.RoundOk s'.app.container.keys := by
  cases h with
  | beginInit => exact Round.ok_first
  | passOver htodo hskip =>
    refine Round.Ok.passOver hs htodo (hskip.imp_left fun hnone hmem => ?_)
    rw [Container.mem_keys, hnone] at hmem
    cases hmem
  | visit htodo hi hdue hhas | callInit htodo hi hdue hhas => exact Round.Ok.mark hs hdue _
  | nextPass htodo hnext => exact Round.Ok.next hs htodo hnext
  | initReturned => exact { sub := hs.sub, busy := nofun, covers := hs.covers }
  | _ => trivial

omit [DecidableEq I] in
theorem roundOk_provide {k : K} {i : I} (hs : s.start.RoundOk s.app.container.keys)
    (hC : ∀ r busy, s.start = .initing r busy → r.progressed = false → k ∈ s.app.container.keys) :
    s.start.RoundOk (s.app.storeKey k i).container.keys := by
  cases hc : s.start with
  | initing r busy =>
    rw [hc] at hs
    refine Round.Ok.rekey hs fun hp => ?_
    exact Container.keys_storeKey_of_mem (hC r busy hc hp)
  | _ => trivial

variable [DecidableEq W] {e : Event K I H W}

theorem flagged_step (hs : s.start.Flagged s.app) (h : s.step svc e = some s') :
    s'.start.Flagged s'.app := by
  cases moves h with
  | start hc hstack h =>
    subst hc
    exact h.flagged hs
  | close he hc h => cases h <;> exact hs
  | call e =>
    cases e with
    | start => exact hs.enter
    | _ => exact hs
  | _ => exact hs

theorem PhaseInv.step (hs : s.PhaseInv) (hC : s.NoLateKey e) (h : s.step svc e = some s') :
    s'.PhaseInv := by
  refine ⟨flagged_step hs.flagged h, ?_⟩
  cases moves h with
  | start hc hstack h =>
    subst hc
    exact h.roundOk hs.round
  | close he hc h => cases h <;> exact hs.round
  | provide => exact roundOk_provide hs.round hC
  | call e =>
    cases e with
    | start => exact Starting.RoundOk.enter hs.round
    | _ => exact hs.round
  | _ => exact hs.round

end

end Runtime

end Microjet.Host
