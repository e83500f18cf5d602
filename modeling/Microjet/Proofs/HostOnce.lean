import Microjet.Lib.Once
import Microjet.Proofs.HostMoves

/-!
# How often a hook is called

For each key and each hook there is at most one call over a whole life of the app: `Pending`
says which keys a phase may still come to. An instance under two keys is called twice; under one
key only, nothing is called twice on it.
-/

namespace Microjet.Host

open Errorx Once

variable {K I H W : Type}

/-- The key whose hook is called. -/
def Note.calledKey (p : Phase) : Note K I H W → Option K
  | .called q k _ => if q = p then some k else none
  | _ => none

/-- All of them. -/
abbrev calledKeys (p : Phase) (log : List (Note K I H W)) : List K :=
  log.filterMap (Note.calledKey p)

/-! ### The body of Start -/

namespace Starting

/-- The phase may still come to the key. -/
def Pending : Starting K I H W → Phase → K → Prop
  | .fresh, _, _ => True
  | .called, _, _ => True
  | .initing r _, .config, k => k ∉ r.configured
  | .initing r _, .init, k => k ∉ r.initialized
  | .initing _ _, _, _ => True
  | .setting todo _, .setup, k => k ∈ todo
  | .setting _ _, .start, _ => True
  | .draining _, .start, _ => True
  | .starting todo _, .start, k => k ∈ todo
  | _, _, _ => False

/-- The walk has no key twice. -/
def Distinct : Starting K I H W → Prop
  | .setting todo _ => todo.Nodup
  | .starting todo _ => todo.Nodup
  | _ => True

/-- What was called is pending no more. -/
structure Once (c : Starting K I H W) (log : List (Note K I H W)) : Prop where
  distinct : c.Distinct
  spent : ∀ p, p ≠ .close → Spent (c.Pending p) (calledKeys p log)

section

variable {c c' : Starting K I H W} {log : List (Note K I H W)} {n : Note K I H W}

theorem Once.note (h : c.Once log) (hn : ∀ p, p ≠ .close → n.calledKey p = none) :
    c.Once (n :: log) := by
  refine ⟨h.distinct, fun p hp => ?_⟩
  rw [calledKeys, List.filterMap_cons_none (hn p hp)]
  exact h.spent p hp

theorem Once.quiet (h : c.Once log) (hd : c'.Distinct)
    (hle : ∀ p k, c'.Pending p k → c.Pending p k) : c'.Once log :=
  ⟨hd, fun p hp => (h.spent p hp).mono (hle p)⟩

theorem Once.call {q : Phase} {k : K} {i : I} (h : c.Once log) (hd : c'.Distinct)
    (hle : ∀ p k, c'.Pending p k → c.Pending p k) (hk : c.Pending q k) (hnot : ¬c'.Pending q k) :
    c'.Once (.called q k i :: log) := by
  refine ⟨hd, fun p hp => ?_⟩
  by_cases hq : q = p
  · subst hq
    have hcalled : (Note.called q k i : Note K I H W).calledKey q = some k := if_pos rfl
    rw [calledKeys, List.filterMap_cons_some hcalled]
    exact (h.spent q hp).use hk (hle q) hnot
  · have hother : (Note.called q k i : Note K I H W).calledKey p = none := if_neg hq
    rw [calledKeys, List.filterMap_cons_none hother]
    exact (h.spent p hp).mono (hle p)

theorem Once.enter (h : c.Once log) : c.enter.Once log := by
  cases c with
  | fresh => exact h.quiet trivial fun _ _ _ => trivial
  | _ => exact h

end

end Starting

section

variable {r r' : Round K} {k j : K} {keys : List K}

theorem Round.mark_configured (h : j ∉ (r.mark k).configured) : j ∉ r.configured := by
  unfold Round.mark at h
  split at h
  · exact fun hj => h (List.mem_cons_of_mem k hj)
  · exact h

theorem Round.mark_initialized (h : j ∉ (r.mark k).initialized) : j ∉ r.initialized := by
  unfold Round.mark at h
  split at h
  · exact h
  · exact fun hj => h (List.mem_cons_of_mem k hj)

theorem Round.next_eq (h : r.next keys = some r') :
    r'.configured = r.configured ∧ r'.initialized = r.initialized ∧ r'.todo = keys ∧
      r'.number = r.number + 1 := by
  unfold Round.next at h
  split at h
  · cases h
    exact ⟨rfl, rfl, rfl, rfl⟩
  · obtain ⟨-, h⟩ := Option.ite_none_right_eq_some.mp h
    cases h
    exact ⟨rfl, rfl, rfl, rfl⟩

theorem Round.due_cases [DecidableEq K] (h : r.due k = true) :
    (r.pass = .config ∧ k ∉ r.configured) ∨
      (r.pass = .init ∧ k ∉ r.initialized ∧ k ∈ r.configured) := by
  unfold Round.due at h
  split at h
  next hp => exact .inl ⟨hp, of_decide_eq_true h⟩
  next hp =>
    rw [Bool.and_eq_true] at h
    exact .inr ⟨hp, of_decide_eq_true h.1, of_decide_eq_true h.2⟩

theorem Round.pending_of_due [DecidableEq K] {busy : Option (K × I)} (h : r.due k = true) :
    (.initing r busy : Starting K I H W).Pending r.pass.phase k := by
  obtain ⟨hp, hconf⟩ | ⟨hp, hinit, -⟩ := Round.due_cases h
  · rw [hp]
    exact hconf
  · rw [hp]
    exact hinit

theorem Round.not_pending_mark {todo : List K} {busy : Option (K × I)} :
    ¬(.initing { r.mark k with todo } busy : Starting K I H W).Pending r.pass.phase k := by
  unfold Round.mark
  cases hp : r.pass with
  | config => exact fun h => h List.mem_cons_self
  | init => exact fun h => h List.mem_cons_self

end

/-! ### The goroutine of Close -/

theorem closeSequence_perm (svc : I → Service) (entries : List (K × I)) :
    (closeSequence svc entries).Perm entries :=
  (List.perm_insertionSort _ _).trans entries.reverse_perm

namespace Closing

/-- The key may still be closed. -/
def Pending : Closing K I → K → Prop
  | .fresh, _ => True
  | .spawned, _ => True
  | .collecting todo entries, k => k ∈ todo ++ entries.map Prod.fst
  | .closing todo _, k => k ∈ todo.map Prod.fst
  | .finished, _ => False

/-- The walk has no key twice. -/
def Distinct : Closing K I → Prop
  | .collecting todo entries => (todo ++ entries.map Prod.fst).Nodup
  | .closing todo _ => (todo.map Prod.fst).Nodup
  | _ => True

/-- What was closed is pending no more. -/
structure Once (c : Closing K I) (log : List (Note K I H W)) : Prop where
  distinct : c.Distinct
  spent : Spent c.Pending (calledKeys .close log)

section

variable {c c' : Closing K I} {log : List (Note K I H W)} {n : Note K I H W}

theorem Once.note (h : c.Once log) (hn : n.calledKey .close = none) : c.Once (n :: log) := by
  refine ⟨h.distinct, ?_⟩
  rw [calledKeys, List.filterMap_cons_none hn]
  exact h.spent

theorem Once.quiet (h : c.Once log) (hd : c'.Distinct) (hle : ∀ k, c'.Pending k → c.Pending k) :
    c'.Once log :=
  ⟨hd, h.spent.mono hle⟩

theorem Once.enter (h : c.Once log) : c.enter.Once log := by
  cases c with
  | fresh => exact h.quiet trivial fun _ _ => trivial
  | _ => exact h

end

end Closing

namespace Runtime

variable [DecidableEq K] [DecidableEq I] {svc : I → Service} {s s' : Runtime K I H W}
  {c : Starting K I H W}

theorem StartMoves.pending_le (h : StartMoves svc s c s') (p : Phase) (k : K) :
    s'.start.Pending p k → c.Pending p k := by
  cases h with
  | visit htodo hi hdue hhas | callInit htodo hi hdue hhas =>
    cases p with
    | config => exact Round.mark_configured
    | init => exact Round.mark_initialized
    | _ => exact id
  | nextPass htodo hnext =>
    obtain ⟨hconf, hinit, -⟩ := Round.next_eq hnext
    cases p with
    | config => exact fun h hk => h (hconf.symm ▸ hk)
    | init => exact fun h hk => h (hinit.symm ▸ hk)
    | _ => exact id
  | skipSetup hp | callSetup hi hhas =>
    cases p with
    | setup => exact List.mem_cons_of_mem _
    | _ => exact id
  | skipStart hp | callStart hi hhas =>
    cases p with
    | start => exact List.mem_cons_of_mem _
    | _ => exact id
  | _ => cases p <;> first | exact id | exact False.elim | exact fun _ => trivial

theorem StartMoves.once (hs : c.Once s.log) (h : StartMoves svc s c s') :
    s'.start.Once s'.log := by
  have hle := h.pending_le
  cases h with
  | callInit htodo hi hdue hhas =>
    exact (hs.note fun _ _ => rfl).call trivial hle (Round.pending_of_due hdue)
      Round.not_pending_mark
  | skipInit => exact hs.quiet s.app.container.nodup hle
  | endInit => exact hs.quiet s.app.container.nodup hle
  | endDrain => exact hs.quiet s.app.container.nodup hle
  | skipSetup => exact hs.quiet hs.distinct.of_cons hle
  | skipStart => exact hs.quiet hs.distinct.of_cons hle
  | callSetup hi hhas =>
    exact hs.call hs.distinct.of_cons hle List.mem_cons_self (List.nodup_cons.mp hs.distinct).1
  | callStart hi hhas =>
    exact hs.call hs.distinct.of_cons hle List.mem_cons_self (List.nodup_cons.mp hs.distinct).1
  | setupReturned | startReturned => exact (hs.note fun _ _ => rfl).quiet hs.distinct hle
  | visit | initReturned | initFailed | setupFailed | handler | handlerReturned | handlerFailed
  | startFailed | launch | launchService => exact (hs.note fun _ _ => rfl).quiet trivial hle
  | _ => exact hs.quiet trivial hle

theorem StartMoves.closeOnce (hs : s.close.Once s.log) (h : StartMoves svc s c s') :
    s'.close.Once s'.log := by
  cases h with
  | @callInit r k todo i htodo hi hdue hhas =>
    have hkey : (Note.called r.pass.phase k i : Note K I H W).calledKey .close = none :=
      if_neg (by cases r.pass <;> decide)
    exact (hs.note rfl).note hkey
  | refused => exact hs.enter
  | initFailed | setupFailed | handlerFailed | startFailed => exact (hs.note rfl).enter
  | visit | initReturned | callSetup | setupReturned | handler | handlerReturned | callStart
  | startReturned | launch | launchService => exact hs.note rfl
  | _ => exact hs

omit [DecidableEq K] [DecidableEq I] in
theorem CloseMoves.once {c : Closing K I} (hs : c.Once s.log) (h : CloseMoves svc s c s') :
    s'.close.Once s'.log := by
  cases h with
  | snapshot =>
    refine hs.quiet ?_ fun _ _ => trivial
    show (s.app.container.keys ++ []).Nodup
    rw [List.append_nil]
    exact s.app.container.nodup
  | gone hk => exact hs.quiet hs.distinct.of_cons fun k => List.mem_cons_of_mem _
  | @collect k i todo entries hi =>
    have hperm : (todo ++ (entries ++ [(k, i)]).map Prod.fst).Perm
        (k :: todo ++ entries.map Prod.fst) := by
      rw [List.map_append, ← List.append_assoc]
      exact List.perm_append_singleton k _
    exact hs.quiet (hperm.nodup_iff.mpr hs.distinct) fun j => hperm.mem_iff.mp
  | @sort entries =>
    have hperm := (closeSequence_perm svc entries).map Prod.fst
    exact hs.quiet (hperm.nodup_iff.mpr hs.distinct) fun j => hperm.mem_iff.mp
  | skipClose hhas => exact hs.quiet hs.distinct.of_cons fun k => List.mem_cons_of_mem _
  | @callClose k i todo hhas =>
    refine ⟨hs.distinct.of_cons, ?_⟩
    exact hs.spent.use List.mem_cons_self (fun j => List.mem_cons_of_mem _)
      (List.nodup_cons.mp hs.distinct).1
  | closeReturned => exact (hs.note rfl).quiet hs.distinct fun _ => id
  | finish => exact hs.quiet trivial fun _ => False.elim

omit [DecidableEq K] [DecidableEq I] in
theorem CloseMoves.startOnce {c : Closing K I} (hs : s.start.Once s.log)
    (h : CloseMoves svc s c s') : s'.start.Once s'.log := by
  cases h with
  | callClose hhas => exact hs.note fun p hp => if_neg hp.symm
  | closeReturned => exact hs.note fun _ _ => rfl
  | _ => exact hs

/-- Both. -/
structure OnceInv (s : Runtime K I H W) : Prop where
  start : s.start.Once s.log
  close : s.close.Once s.log

theorem OnceInv.step [DecidableEq W] {e : Event K I H W} (hs : s.OnceInv)
    (h : s.step svc e = some s') : s'.OnceInv := by
  cases moves h with
  | start hc hstack h =>
    subst hc
    exact ⟨h.once hs.start, h.closeOnce hs.close⟩
  | close he hc h =>
    subst hc
    exact ⟨h.startOnce hs.start, h.once hs.close⟩
  | call e =>
    cases e with
    | start => exact ⟨hs.start.enter, hs.close⟩
    | close => exact ⟨hs.start, hs.close.enter⟩
    | _ => exact ⟨hs.start, hs.close⟩
  | waited | expire => exact ⟨hs.start, hs.close.enter⟩
  | provide | handlerReturned | handlerFailed | handler | answered =>
    exact ⟨hs.start.note fun _ _ => rfl, hs.close.note rfl⟩
  | _ => exact ⟨hs.start, hs.close⟩

omit [DecidableEq K] [DecidableEq I] in
theorem onceInv_init : OnceInv ({} : Runtime K I H W) where
  start := ⟨trivial, fun _ _ => spent_nil⟩
  close := ⟨trivial, spent_nil⟩

omit [DecidableEq K] [DecidableEq I] in
theorem OnceInv.nodup (hs : s.OnceInv) (p : Phase) : (calledKeys p s.log).Nodup := by
  by_cases hp : p = .close
  · subst hp
    exact hs.close.spent.1
  · exact (hs.start.spent p hp).1

end Runtime

/-- What `Close` has taken up. -/
def Closing.entries : Closing K I → List (K × I)
  | .collecting _ entries => entries
  | .closing todo _ => todo
  | _ => []

theorem Closing.enter_entries (c : Closing K I) : c.enter.entries = c.entries := by
  cases c <;> rfl

/-- Whatever is there was provided. -/
structure Provenance (load : K → Option I) (entries : List (K × I))
    (log : List (Note K I H W)) : Prop where
  load : ∀ k i, load k = some i → .provided k i ∈ log
  close : ∀ e ∈ entries, .provided e.1 e.2 ∈ log
  called : ∀ p k i, .called p k i ∈ log → .provided k i ∈ log

theorem Provenance.note {load : K → Option I} {entries : List (K × I)}
    {log : List (Note K I H W)} {n : Note K I H W} (h : Provenance load entries log)
    (hn : ∀ p k i, n = .called p k i → .provided k i ∈ log) :
    Provenance load entries (n :: log) where
  load := fun k i hk => List.mem_cons_of_mem n (h.load k i hk)
  close := fun e he => List.mem_cons_of_mem n (h.close e he)
  called := fun p k i hk => by
    rcases List.mem_cons.mp hk with hk | hk
    · exact List.mem_cons_of_mem n (hn p k i hk.symm)
    · exact List.mem_cons_of_mem n (h.called p k i hk)

theorem Provenance.provide [DecidableEq K] {c : Container K I} {entries : List (K × I)}
    {log : List (Note K I H W)} {k : K} {i : I} (h : Provenance c.load entries log) :
    Provenance (c.storeKey k i).load entries (.provided k i :: log) := by
  refine { (h.note (n := .provided k i) nofun) with load := fun j x hj => ?_ }
  rw [Container.load_storeKey] at hj
  split at hj
  next hjk =>
    cases hj
    exact hjk ▸ List.mem_cons_self
  next => exact List.mem_cons_of_mem _ (h.load j x hj)

theorem Provenance.enter {load : K → Option I} {c : Closing K I} {log : List (Note K I H W)}
    (h : Provenance load c.entries log) : Provenance load c.enter.entries log :=
  c.enter_entries.symm ▸ h

namespace Runtime

/-- So it is in the app. -/
abbrev Provided (s : Runtime K I H W) : Prop :=
  Provenance s.app.container.load s.close.entries s.log

section

variable {svc : I → Service} {s s' : Runtime K I H W}

theorem StartMoves.provided [DecidableEq K] [DecidableEq I] {c : Starting K I H W}
    (hs : s.Provided) (h : StartMoves svc s c s') : s'.Provided := by
  cases h with
  | callInit htodo hi hdue hhas =>
    refine (hs.note (n := .visited _ _ _ _) nofun).note fun p k i hk => ?_
    cases hk
    exact List.mem_cons_of_mem _ (hs.load _ _ hi)
  | callSetup hi hhas | callStart hi hhas =>
    refine hs.note fun p k i hk => ?_
    cases hk
    exact hs.load _ _ hi
  | refused => exact hs.enter
  | initFailed | setupFailed | handlerFailed | startFailed =>
    exact Provenance.enter (hs.note nofun)
  | visit | initReturned | setupReturned | handler | handlerReturned | startReturned | launch
  | launchService => exact hs.note nofun
  | _ => exact hs

theorem CloseMoves.provided {c : Closing K I} (hc : s.close = c) (hs : s.Provided)
    (h : CloseMoves svc s c s') : s'.Provided := by
  rw [Provided, hc] at hs
  cases h with
  | snapshot => exact hs
  | gone hk => exact hs
  | @collect k i todo entries hi =>
    refine { hs with close := fun e he => ?_ }
    rcases List.mem_append.mp he with he | he
    · exact hs.close e he
    · cases List.mem_singleton.mp he
      exact hs.load _ _ hi
  | sort =>
    exact { hs with close := fun e he => hs.close e ((closeSequence_perm svc _).mem_iff.mp he) }
  | skipClose hhas => exact { hs with close := fun e he => hs.close e (List.mem_cons_of_mem _ he) }
  | callClose hhas =>
    refine Provenance.note { hs with close := fun e he => hs.close e (List.mem_cons_of_mem _ he) }
      fun p k i hk => ?_
    cases hk
    exact hs.close _ List.mem_cons_self
  | closeReturned => exact hs.note nofun
  | finish => exact { hs with close := nofun }

variable [DecidableEq K] [DecidableEq I] [DecidableEq W] {e : Event K I H W}

theorem Provided.step (hs : s.Provided) (h : s.step svc e = some s') : s'.Provided := by
  cases moves h with
  | start hc hstack h => exact h.provided hs
  | close he hc h => exact h.provided hc hs
  | provide => exact hs.provide
  | call e =>
    cases e with
    | close => exact hs.enter
    | _ => exact hs
  | waited | expire => exact hs.enter
  | handlerReturned | handlerFailed | handler | answered => exact hs.note nofun
  | _ => exact hs

end

end Runtime

/-! ### One key for each instance -/

/-- What was provided. -/
def Note.entry : Note K I H W → Option (K × I)
  | .provided k i => some (k, i)
  | _ => none

/-- A call on the instance. -/
def Note.calls [DecidableEq I] (p : Phase) (i : I) : Note K I H W → Bool
  | .called q _ j => q = p && j = i
  | _ => false

namespace Runtime

section

variable [DecidableEq K] [DecidableEq I] {svc : I → Service} {s s' : Runtime K I H W}

theorem StartMoves.entries {c : Starting K I H W} (h : StartMoves svc s c s') :
    s'.log.filterMap Note.entry = s.log.filterMap Note.entry := by
  cases h <;> rfl

omit [DecidableEq K] [DecidableEq I] in
theorem CloseMoves.entries {c : Closing K I} (h : CloseMoves svc s c s') :
    s'.log.filterMap Note.entry = s.log.filterMap Note.entry := by
  cases h <;> rfl

variable [DecidableEq W]

/-- The instance is not provided under a key other than the one it has. -/
def OneKey (s : Runtime K I H W) : Event K I H W → Prop
  | .act _ (.provide k i) => ∀ e ∈ s.log.filterMap Note.entry, e.2 = i → e.1 = k
  | _ => True

instance decidableOneKey (s : Runtime K I H W) : (e : Event K I H W) → Decidable (s.OneKey e)
  | .act _ (.provide _ _) => inferInstanceAs (Decidable (∀ e ∈ s.log.filterMap Note.entry, _))
  | .act _ (.setup _) | .act _ (.withWorker _) | .act _ (.fail _) | .act _ (.call _)
  | .act _ (.ret _) | .go _ | .closed _ | .shutdown | .expire _ | .workerDone | .shutdownCh
  | .fatal _ | .exit _ | .ctxDone => .isTrue trivial

/-- No instance was provided under two keys. -/
def OneKeyEach (s : Runtime K I H W) : Prop :=
  ∀ e ∈ s.log.filterMap Note.entry, ∀ f ∈ s.log.filterMap Note.entry, e.2 = f.2 → e.1 = f.1

theorem OneKeyEach.step {e : Event K I H W} (hs : s.OneKeyEach) (hC : s.OneKey e)
    (h : s.step svc e = some s') : s'.OneKeyEach := by
  cases moves h with
  | start hc hstack h =>
    rw [OneKeyEach, h.entries]
    exact hs
  | close he hc h =>
    rw [OneKeyEach, h.entries]
    exact hs
  | provide =>
    intro e he f hf hef
    rcases List.mem_cons.mp he with rfl | he <;> rcases List.mem_cons.mp hf with rfl | hf
    · rfl
    · exact (hC f hf hef.symm).symm
    · exact hC e he hef
    · exact hs e he f hf hef
  | call e => cases e <;> exact hs
  | _ => exact hs

end

end Runtime

end Microjet.Host
