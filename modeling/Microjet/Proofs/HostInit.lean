import Mathlib.Data.List.Perm.Subperm
import Microjet.Proofs.HostFailure
import Microjet.Proofs.HostPhases

/-!
# Initialization

`initServices` goes over a container that its own callbacks may enlarge. It ends: a pass is
bounded by the number of keys, and a further round is made only after one that has marked a key
(`Round.left`). Nothing is done twice and nothing out of turn (`Traced`), and the keys of a pass
come in the order of their registration (`InOrder`).
-/

namespace Microjet.Host

open Errorx

variable {K I H W : Type}

/-! ### The notes of one key -/

/-- It is about the initialization of the key. -/
def Note.inits [DecidableEq K] (k : K) : Note K I H W → Bool
  | .visited _ _ j _ => j = k
  | .called .config j _ => j = k
  | .called .init j _ => j = k
  | .returned .config j _ _ => j = k
  | .returned .init j _ _ => j = k
  | _ => false

/-- The notes of one pass about a key. -/
def segment (svc : I → Service) (m : Nat) (p : Phase) (k : K) (i : I) : List (Note K I H W) :=
  if (svc i).has p then [.returned p k i none, .called p k i, .visited m p k i]
  else [.visited m p k i]

/-- A segment for each phase. -/
def Segments (svc : I → Service) (k : K) : List Phase → List (Note K I H W) → Prop
  | [], notes => notes = []
  | p :: ps, notes => ∃ m i rest, notes = segment svc m p k i ++ rest ∧ Segments svc k ps rest

/-- The last segment is not over. -/
def Running (svc : I → Service) (p : Phase) (k : K) (i : I) (ps : List Phase)
    (notes : List (Note K I H W)) : Prop :=
  (svc i).has p = true ∧
    ∃ m rest, notes = .called p k i :: .visited m p k i :: rest ∧ Segments svc k ps rest

/-- The notes about a key are a segment for each pass that is over. -/
def Starting.Traced [DecidableEq K] (svc : I → Service) (log : List (Note K I H W)) :
    Starting K I H W → Prop
  | .fresh => ∀ k, log.filter (Note.inits k) = []
  | .called => ∀ k, log.filter (Note.inits k) = []
  | .initing r none => ∀ k, Segments svc k (r.passed k) (log.filter (Note.inits k))
  | .initing r (some (k, i)) =>
    (∀ j, j ≠ k → Segments svc j (r.passed j) (log.filter (Note.inits j))) ∧
      ∃ ps, r.passed k = r.pass.phase :: ps ∧
        Running svc r.pass.phase k i ps (log.filter (Note.inits k))
  | _ => True

section

variable [DecidableEq K] {svc : I → Service} {log : List (Note K I H W)} {c : Starting K I H W}
  {n : Note K I H W} {p : Phase} {ps : List Phase} {k j : K} {i : I}

theorem filter_own (h : n.inits k = true) :
    (n :: log).filter (Note.inits k) = n :: log.filter (Note.inits k) :=
  List.filter_cons_of_pos h

theorem filter_other (h : n.inits k = false) :
    (n :: log).filter (Note.inits k) = log.filter (Note.inits k) :=
  List.filter_cons_of_neg (by rw [h]; exact Bool.false_ne_true)

theorem Starting.Traced.note (h : c.Traced svc log) (hn : ∀ k, n.inits k = false) :
    c.Traced svc (n :: log) := by
  have hfilter : ∀ k, (n :: log).filter (Note.inits k) = log.filter (Note.inits k) := fun k =>
    filter_other (hn k)
  unfold Starting.Traced at h ⊢
  simp only [hfilter]
  exact h

theorem Starting.Traced.enter (h : c.Traced svc log) : c.enter.Traced svc log := by
  cases c <;> exact h

theorem Note.inits_called (q : Pass) :
    (Note.called q.phase k i : Note K I H W).inits j = decide (k = j) := by
  cases q <;> rfl

theorem Note.inits_returned (q : Pass) {err : Option Err} :
    (Note.returned q.phase k i err : Note K I H W).inits j = decide (k = j) := by
  cases q <;> rfl

omit [DecidableEq K] in
theorem segment_of_has {m : Nat} (h : (svc i).has p = true) :
    (segment svc m p k i : List (Note K I H W)) =
      [.returned p k i none, .called p k i, .visited m p k i] := if_pos h

omit [DecidableEq K] in
theorem segment_of_not {m : Nat} (h : (svc i).has p = false) :
    (segment svc m p k i : List (Note K I H W)) = [.visited m p k i] :=
  if_neg (by rw [h]; exact Bool.false_ne_true)

end

namespace Runtime

section

variable [DecidableEq K] [DecidableEq I] {svc : I → Service} {s s' : Runtime K I H W}
  {c : Starting K I H W}

theorem StartMoves.traced (hs : c.Traced svc s.log) (hr : c.RoundOk s.app.container.keys)
    (h : StartMoves svc s c s') : s'.start.Traced svc s'.log := by
  cases h with
  | beginInit => exact hs
  | passOver => exact hs
  | @visit r k todo i htodo hi hdue hhas =>
    intro j
    show Segments svc j (Round.passed { r.mark k with todo } j) _
    by_cases hjk : j = k
    · subst hjk
      rw [Round.passed_mark_self hr.sub hdue]
      refine ⟨r.number, i, _, ?_, hs j⟩
      rw [segment_of_not hhas]
      exact filter_own (decide_eq_true rfl)
    · rw [Round.passed_mark_ne hjk]
      have hother : (Note.visited r.number r.pass.phase k i : Note K I H W).inits j = false :=
        decide_eq_false (Ne.symm hjk)
      exact (filter_other hother).symm ▸ hs j
  | @callInit r k todo i htodo hi hdue hhas =>
    refine ⟨fun j hjk => ?_, r.passed k, ?_, ?_⟩
    · show Segments svc j (Round.passed { r.mark k with todo } j) _
      rw [Round.passed_mark_ne hjk]
      have hcalled : (Note.called r.pass.phase k i : Note K I H W).inits j = false :=
        (Note.inits_called r.pass).trans (decide_eq_false (Ne.symm hjk))
      have hvisited : (Note.visited r.number r.pass.phase k i : Note K I H W).inits j = false :=
        decide_eq_false (Ne.symm hjk)
      exact ((filter_other hcalled).trans (filter_other hvisited)).symm ▸ hs j
    · show Round.passed { r.mark k with todo } k = (r.mark k).pass.phase :: r.passed k
      rw [Round.passed_mark_self hr.sub hdue, Round.mark_pass]
    · show Running svc (r.mark k).pass.phase k i (r.passed k) _
      rw [Round.mark_pass]
      refine ⟨hhas, r.number, _, ?_, hs k⟩
      rw [← filter_own (n := .visited r.number r.pass.phase k i) (decide_eq_true rfl)]
      exact filter_own ((Note.inits_called r.pass).trans (decide_eq_true rfl))
  | @nextPass r r' htodo hnext =>
    obtain ⟨hconf, hinit, -⟩ := Round.next_eq hnext
    intro j
    rw [Round.passed, hconf, hinit, ← Round.passed]
    exact hs j
  | @initReturned r k i =>
    obtain ⟨hothers, ps, hps, hhas, m, rest, hnotes, hrest⟩ := hs
    intro j
    by_cases hjk : j = k
    · subst hjk
      rw [hps]
      refine ⟨m, i, rest, ?_, hrest⟩
      rw [segment_of_has hhas]
      refine (filter_own ((Note.inits_returned r.pass).trans (decide_eq_true rfl))).trans ?_
      rw [hnotes]
      rfl
    · have hother : (Note.returned r.pass.phase k i none : Note K I H W).inits j = false :=
        (Note.inits_returned r.pass).trans (decide_eq_false (Ne.symm hjk))
      exact (filter_other hother).symm ▸ hothers j hjk
  | _ => trivial

/-- A key is initialized after its configuration. -/
def AfterConfig (svc : I → Service) (n : Note K I H W) (older : List (Note K I H W)) : Prop :=
  ∀ m k j, n = .visited m .init k j →
    ∃ m' i, older.filter (Note.inits k) = segment svc m' .config k i

omit [DecidableEq I] in
theorem passed_of_due_init {r : Round K} {k : K} (hp : r.pass = .init) (h : r.due k = true) :
    r.passed k = [.config] := by
  obtain ⟨hother, -⟩ | ⟨-, hinit, hconf⟩ := Round.due_cases h
  · cases hp.symm.trans hother
  · simp only [Round.passed, hinit, hconf, if_false, if_true]

omit [DecidableEq I] in
theorem afterConfig_visit {r : Round K} {k : K} {i : I} {log : List (Note K I H W)}
    (hs : (.initing r none : Starting K I H W).Traced svc log) (hdue : r.due k = true) :
    AfterConfig svc (.visited r.number r.pass.phase k i) log := by
  intro m j x hx
  cases hp : r.pass with
  | config =>
    rw [hp] at hx
    cases hx
  | init =>
    rw [hp] at hx
    cases hx
    have hseg := hs k
    rw [passed_of_due_init hp hdue] at hseg
    obtain ⟨m', i', rest, hnotes, hrest⟩ := hseg
    rw [show rest = [] from hrest, List.append_nil] at hnotes
    exact ⟨m', i', hnotes⟩

theorem StartMoves.afterConfig (hlog : Log.Each (AfterConfig svc) s.log)
    (hs : c.Traced svc s.log) (h : StartMoves svc s c s') :
    Log.Each (AfterConfig svc) s'.log := by
  cases h with
  | visit htodo hi hdue => exact ⟨afterConfig_visit hs hdue, hlog⟩
  | callInit htodo hi hdue => exact ⟨nofun, afterConfig_visit hs hdue, hlog⟩
  | initReturned | initFailed | callSetup | setupReturned | setupFailed | handler
  | handlerReturned | handlerFailed | callStart | startReturned | startFailed | launch
  | launchService => exact ⟨nofun, hlog⟩
  | _ => exact hlog

end

end Runtime

/-! ### The keys of one pass -/

/-- The key that pass `m` takes up. -/
def Note.visitedIn (m : Nat) : Note K I H W → Option K
  | .visited n _ k _ => if n = m then some k else none
  | _ => none

/-- The keys of pass `m`. -/
abbrev visits (m : Nat) (log : List (Note K I H W)) : List K := log.filterMap (Note.visitedIn m)

theorem visits_other {m : Nat} {n : Note K I H W} {log : List (Note K I H W)}
    (h : n.visitedIn m = none) : visits m (n :: log) = visits m log :=
  List.filterMap_cons_none h

/-- The keys still to come are after those visited. -/
def Starting.Ahead (keys : List K) (log : List (Note K I H W)) : Starting K I H W → Prop
  | .fresh => ∀ m, visits m log = []
  | .called => ∀ m, visits m log = []
  | .initing r _ =>
    (∀ m, r.number < m → visits m log = []) ∧
      ((visits r.number log).reverse ++ r.todo).Sublist keys
  | _ => True

/-- Every pass takes the keys in order. -/
structure Starting.InOrder (keys : List K) (log : List (Note K I H W)) (c : Starting K I H W) :
    Prop where
  passes : ∀ m, (visits m log).reverse.Sublist keys
  ahead : c.Ahead keys log

section

variable {keys keys' : List K} {log : List (Note K I H W)} {c c' : Starting K I H W}
  {n : Note K I H W}

theorem Starting.InOrder.note (h : c.InOrder keys log) (hn : ∀ m, n.visitedIn m = none) :
    c.InOrder keys (n :: log) := by
  have hvisits : ∀ m, visits m (n :: log) = visits m log := fun m => visits_other (hn m)
  obtain ⟨hpasses, hahead⟩ := h
  refine ⟨fun m => by rw [hvisits]; exact hpasses m, ?_⟩
  unfold Starting.Ahead at hahead ⊢
  simp only [hvisits]
  exact hahead

theorem Starting.InOrder.extend (h : c.InOrder keys log) (hk : keys.Sublist keys') :
    c.InOrder keys' log := by
  refine ⟨fun m => (h.passes m).trans hk, ?_⟩
  have hahead := h.ahead
  cases c with
  | initing r busy => exact ⟨hahead.1, hahead.2.trans hk⟩
  | _ => exact hahead

theorem Starting.InOrder.enter (h : c.InOrder keys log) : c.enter.InOrder keys log := by
  cases c with
  | fresh => exact ⟨h.passes, h.ahead⟩
  | _ => exact h

theorem Starting.InOrder.visit {r : Round K} {k : K} {todo : List K} {p : Phase} {i : I}
    {busy : Option (K × I)} (h : (.initing r none : Starting K I H W).InOrder keys log)
    (htodo : r.todo = k :: todo) :
    (.initing { r.mark k with todo } busy : Starting K I H W).InOrder keys
      (.visited r.number p k i :: log) := by
  obtain ⟨hlater, hleft⟩ := h.ahead
  have hown : visits r.number (.visited r.number p k i :: log) = k :: visits r.number log :=
    List.filterMap_cons_some (if_pos rfl)
  have hother : ∀ m, m ≠ r.number → visits m (.visited r.number p k i :: log) = visits m log :=
    fun m hm => visits_other (if_neg (Ne.symm hm))
  rw [htodo, List.append_cons, ← List.reverse_cons, ← hown] at hleft
  refine ⟨fun m => ?_, fun m hm => ?_, ?_⟩
  · by_cases hmr : m = r.number
    · subst hmr
      exact (List.sublist_append_left _ todo).trans hleft
    · rw [hother m hmr]
      exact h.passes m
  · have hm : r.number < m := Round.mark_number (r := r) (k := k) ▸ hm
    rw [hother m (by omega)]
    exact hlater m hm
  · show ((visits (r.mark k).number _).reverse ++ todo).Sublist keys
    rw [Round.mark_number]
    exact hleft

end

namespace Runtime

section

variable [DecidableEq K] [DecidableEq I] {svc : I → Service} {s s' : Runtime K I H W}
  {c : Starting K I H W}

theorem StartMoves.inOrder (hs : c.InOrder s.app.container.keys s.log)
    (h : StartMoves svc s c s') : s'.start.InOrder s'.app.container.keys s'.log := by
  cases h with
  | beginInit =>
    refine ⟨hs.passes, fun m _ => hs.ahead m, ?_⟩
    rw [hs.ahead]
    exact List.Sublist.refl _
  | passOver htodo =>
    obtain ⟨hlater, hleft⟩ := hs.ahead
    rw [htodo] at hleft
    exact ⟨hs.passes, hlater, ((List.sublist_cons_self _ _).append_left _).trans hleft⟩
  | visit htodo => exact hs.visit htodo
  | callInit htodo => exact (hs.visit htodo).note fun _ => rfl
  | nextPass htodo hnext =>
    obtain ⟨-, -, htodo', hnumber⟩ := Round.next_eq hnext
    obtain ⟨hlater, -⟩ := hs.ahead
    refine ⟨hs.passes, fun m hm => hlater m (by omega), ?_⟩
    rw [htodo', hlater _ (by omega)]
    exact List.Sublist.refl _
  | initReturned => exact ⟨(hs.note fun _ => rfl).passes, (hs.note fun _ => rfl).ahead⟩
  | initFailed | callSetup | setupReturned | setupFailed | handler | handlerReturned
  | handlerFailed | callStart | startReturned | startFailed | launch | launchService =>
    exact ⟨(hs.note fun _ => rfl).passes, trivial⟩
  | _ => exact ⟨hs.passes, trivial⟩

end

end Runtime

/-! ### The end of the loop -/

/-- The steps `initServices` may still take: a full round for each mark yet to be set and for
those of this round, and the rest of it. -/
def Round.left (n : Nat) (r : Round K) : Nat :=
  (2 * n - r.configured.length - r.initialized.length + r.progressed.toNat) * (2 * n + 2) +
    match r.pass with
    | .config => r.todo.length + 1 + (n + 1)
    | .init => r.todo.length + 1

/-- A bound on the steps left. -/
def Starting.left (n : Nat) : Starting K I H W → Nat
  | .fresh => (2 * n + 1) * (2 * n + 2)
  | .called => (2 * n + 1) * (2 * n + 2)
  | .initing r _ => r.left n
  | _ => 0

/-- The marks are distinct keys. -/
structure Round.Marks (keys : List K) (r : Round K) : Prop where
  configured : r.configured.Nodup ∧ r.configured ⊆ keys
  initialized : r.initialized.Nodup ∧ r.initialized ⊆ keys

section

variable {r r' : Round K} {k : K} {keys : List K} {n : Nat} {todo : List K}

theorem Round.Marks.mark [DecidableEq K] (h : r.Marks keys) (hk : k ∈ keys)
    (hdue : r.due k = true) : ({ r.mark k with todo } : Round K).Marks keys := by
  unfold Round.mark
  obtain ⟨hp, hconf⟩ | ⟨hp, hinit, -⟩ := Round.due_cases hdue
  · rw [hp]
    exact ⟨⟨h.configured.1.cons hconf, List.cons_subset.mpr ⟨hk, h.configured.2⟩⟩, h.initialized⟩
  · rw [hp]
    exact ⟨h.configured, h.initialized.1.cons hinit,
      List.cons_subset.mpr ⟨hk, h.initialized.2⟩⟩

theorem Round.left_le {n a b : Nat} {p q : Bool} (h : a + p.toNat ≤ b + q.toNat) {x y : Nat}
    (hxy : x + 1 ≤ y) :
    (a + p.toNat) * (2 * n + 2) + x + 1 ≤ (b + q.toNat) * (2 * n + 2) + y := by
  have := Nat.mul_le_mul_right (2 * n + 2) h
  omega

theorem Round.Marks.length_le (h : r.Marks keys) (hn : keys.length ≤ n) :
    r.configured.length ≤ n ∧ r.initialized.length ≤ n :=
  ⟨(List.subperm_of_subset h.configured.1 h.configured.2).length_le.trans hn,
    (List.subperm_of_subset h.initialized.1 h.initialized.2).length_le.trans hn⟩

theorem Round.left_mark (h : ({ r.mark k with todo } : Round K).Marks keys)
    (hn : keys.length ≤ n) (htodo : r.todo = k :: todo) :
    ({ r.mark k with todo } : Round K).left n + 1 ≤ r.left n := by
  obtain ⟨hconf, hinit⟩ := h.length_le hn
  unfold Round.mark at hconf hinit ⊢
  cases hp : r.pass with
  | config =>
    rw [hp] at hconf hinit
    simp only [List.length_cons] at hconf hinit
    simp only [Round.left, hp, htodo, List.length_cons]
    exact Round.left_le (p := true) (by simp only [Bool.toNat_true]; omega) (by omega)
  | init =>
    rw [hp] at hconf hinit
    simp only [List.length_cons] at hconf hinit
    simp only [Round.left, hp, htodo, List.length_cons]
    exact Round.left_le (p := true) (by simp only [Bool.toNat_true]; omega) (by omega)

theorem Round.left_passOver (htodo : r.todo = k :: todo) :
    ({ r with todo } : Round K).left n + 1 ≤ r.left n := by
  unfold Round.left
  cases hp : r.pass <;> simp only [htodo, List.length_cons] <;> omega

theorem Round.left_next (hn : keys.length ≤ n) (htodo : r.todo = [])
    (hnext : r.next keys = some r') : r'.left n + 1 ≤ r.left n := by
  unfold Round.next at hnext
  split at hnext
  next hp =>
    cases hnext
    simp only [Round.left, hp, htodo, List.length_nil]
    omega
  next hp =>
    obtain ⟨hprog, hnext⟩ := Option.ite_none_right_eq_some.mp hnext
    cases hnext
    simp only [Round.left, hp, htodo, hprog, List.length_nil, Bool.toNat_true, Bool.toNat_false,
      Nat.add_mul, Nat.one_mul, Nat.zero_mul]
    omega

theorem Round.left_first (hn : keys.length ≤ n) :
    (Round.first keys).left n ≤ (2 * n + 1) * (2 * n + 2) := by
  simp only [Round.left, Round.first, List.length_nil, Bool.toNat_false, Nat.sub_zero, Nat.add_mul,
    Nat.one_mul]
  omega

theorem Round.left_pos (r : Round K) : 1 ≤ r.left n := by
  unfold Round.left
  cases r.pass <;> simp only <;> omega

end

/-- So they are in the running round. -/
def Starting.Marks (keys : List K) : Starting K I H W → Prop
  | .initing r _ => r.Marks keys
  | _ => True

variable {c : Starting K I H W}

theorem Starting.Marks.extend {keys keys' : List K} (h : c.Marks keys)
    (hk : keys ⊆ keys') : c.Marks keys' := by
  cases c with
  | initing r busy =>
    exact ⟨⟨h.configured.1, List.Subset.trans h.configured.2 hk⟩, h.initialized.1,
      List.Subset.trans h.initialized.2 hk⟩
  | _ => trivial

theorem Starting.Marks.enter {keys : List K} (h : c.Marks keys) :
    c.enter.Marks keys := by
  cases c with
  | fresh => trivial
  | _ => exact h

/-- `initServices` is between two hooks. -/
def Starting.looping : Starting K I H W → Bool
  | .initing _ none => true
  | _ => false

namespace Runtime

/-- New values come in only while a hook of `initServices` is running. -/
def HookProvides (s : Runtime K I H W) : Event K I H W → Prop
  | .act _ (.provide _ _) => s.start.looping = false
  | _ => True

instance decidableHookProvides (s : Runtime K I H W) :
    (e : Event K I H W) → Decidable (s.HookProvides e)
  | .act _ (.provide _ _) => inferInstanceAs (Decidable (_ = _))
  | .act _ (.setup _) | .act _ (.withWorker _) | .act _ (.fail _) | .act _ (.call _)
  | .act _ (.ret _) | .go _ | .closed _ | .shutdown | .expire _ | .workerDone | .shutdownCh
  | .fatal _ | .exit _ | .ctxDone => .isTrue trivial

section

variable [DecidableEq K] [DecidableEq I] {svc : I → Service} {s s' : Runtime K I H W}
  {c : Starting K I H W} {n : Nat}

theorem StartMoves.marks (hs : c.Marks s.app.container.keys) (h : StartMoves svc s c s') :
    s'.start.Marks s'.app.container.keys := by
  cases h with
  | beginInit => exact ⟨⟨.nil, nofun⟩, .nil, nofun⟩
  | passOver => exact ⟨hs.configured, hs.initialized⟩
  | visit htodo hi hdue | callInit htodo hi hdue =>
    exact hs.mark ((s.app.container.mem_keys _).mpr (by rw [hi]; rfl)) hdue
  | nextPass htodo hnext =>
    obtain ⟨hconf, hinit, -⟩ := Round.next_eq hnext
    exact ⟨hconf ▸ hs.configured, hinit ▸ hs.initialized⟩
  | initReturned => exact hs
  | _ => trivial

theorem StartMoves.left (hs : c.Marks s.app.container.keys)
    (hn : s'.app.container.keys.length ≤ n) (h : StartMoves svc s c s') :
    s'.start.left n + c.looping.toNat ≤ c.left n := by
  have hm := h.marks hs
  cases h with
  | beginInit => exact Round.left_first hn
  | passOver htodo => exact Round.left_passOver htodo
  | visit htodo | callInit htodo => exact Round.left_mark hm hn htodo
  | nextPass htodo hnext => exact Round.left_next hn htodo hnext
  | endInit | endInitSkip => exact (Nat.zero_add 1).symm ▸ Round.left_pos _
  | initReturned => exact Nat.le_refl _
  | _ => exact Nat.zero_le _

/-- The invariant. -/
structure InitInv (svc : I → Service) (s : Runtime K I H W) : Prop where
  phase : s.PhaseInv
  idle : s.Idle
  course : s.start.Course s.log
  marks : s.start.Marks s.app.container.keys
  traced : s.start.Traced svc s.log
  order : s.start.InOrder s.app.container.keys s.log
  afterConfig : Log.Each (AfterConfig svc) s.log

variable {e : Event K I H W}

omit [DecidableEq K] [DecidableEq I] in
theorem HookProvides.noLateKey (hs : s.PhaseInv) (h : s.HookProvides e) :
    s.NoLateKey e := by
  unfold HookProvides at h
  unfold NoLateKey
  split
  next =>
    intro r busy hc hp
    have hround := hs.round
    rw [hc] at h hround
    cases busy with
    | none => cases h
    | some b => cases hp.symm.trans (hround.busy rfl)
  next => trivial

theorem InitInv.step [DecidableEq W] (hs : s.InitInv svc) (hC : s.HookProvides e)
    (h : s.step svc e = some s') : s'.InitInv svc := by
  have hphase := hs.phase.step (hC.noLateKey hs.phase) h
  have hidle := hs.idle.step h
  have hcourse := course_step hs.course h
  obtain ⟨hp, -, -, hmarks, htraced, horder, hconfig⟩ := hs
  cases moves h with
  | start hc hstack h =>
    subst hc
    exact ⟨hphase, hidle, hcourse, h.marks hmarks, h.traced htraced hp.round, h.inOrder horder,
      h.afterConfig hconfig htraced⟩
  | close he hc h =>
    cases h with
    | callClose | closeReturned =>
      exact ⟨hphase, hidle, hcourse, hmarks, htraced.note fun _ => rfl,
        horder.note fun _ => rfl, nofun, hconfig⟩
    | _ => exact ⟨hphase, hidle, hcourse, hmarks, htraced, horder, hconfig⟩
  | provide =>
    have hkeys := s.app.container.keys_sublist_storeKey
    refine ⟨hphase, hidle, hcourse, ?_, htraced.note fun _ => rfl,
      (horder.extend (hkeys _ _)).note fun _ => rfl, nofun, hconfig⟩
    exact hmarks.extend (hkeys _ _).subset
  | call e =>
    cases e with
    | start =>
      exact ⟨hphase, hidle, hcourse, hmarks.enter, htraced.enter, horder.enter, hconfig⟩
    | _ => exact ⟨hphase, hidle, hcourse, hmarks, htraced, horder, hconfig⟩
  | handlerReturned | handlerFailed | handler | answered =>
    exact ⟨hphase, hidle, hcourse, hmarks, htraced.note fun _ => rfl, horder.note fun _ => rfl,
      nofun, hconfig⟩
  | _ => exact ⟨hphase, hidle, hcourse, hmarks, htraced, horder, hconfig⟩

theorem InitInv.complete [DecidableEq W] (hs : s.InitInv svc) (h : s.step svc e = some s')
    (h0 : s.app.isServiceInitialized = false) (h1 : s'.app.isServiceInitialized = true) {k : K}
    (hk : k ∈ s'.app.container.keys) :
    ∃ m i m' j, s'.log.filter (Note.inits k) =
      segment svc m' .init k j ++ segment svc m .config k i := by
  have hnot : ∀ b : Bool, b = false → b = true → False := by decide
  cases moves h with
  | start hc hstack h =>
    have hround := hs.phase.round
    have htraced := hs.traced
    have hflagged := hs.phase.flagged
    rw [hc] at hround htraced hflagged
    cases h with
    | endInit htodo hnext hset =>
      obtain ⟨-, hinit⟩ := hround.complete htodo hnext k hk
      have hseg := htraced k
      rw [Round.passed, if_pos hinit] at hseg
      obtain ⟨m', j, rest, hnotes, m, i, rest', hrest, hnil⟩ := hseg
      rw [hrest, show rest' = [] from hnil, List.append_nil] at hnotes
      exact ⟨m, i, m', j, hnotes⟩
    | endInitSkip htodo hnext hset => exact (hnot _ hflagged.2.1 hset).elim
    | _ => exact (hnot _ h0 h1).elim
  | close he hc h => cases h <;> exact (hnot _ h0 h1).elim
  | call e => cases e <;> exact (hnot _ h0 h1).elim
  | _ => exact (hnot _ h0 h1).elim

end

section

variable [DecidableEq K] [DecidableEq I] [DecidableEq W]

end

end Runtime

end Microjet.Host
