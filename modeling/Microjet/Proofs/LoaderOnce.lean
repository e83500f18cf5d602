import Microjet.Proofs.LoaderMoves

/-!
# A cold key is loaded once

As long as nothing is stored no flight has ended and nobody has been told anything (`cold`), and
once something is stored every flight finds it when it looks again (`warm`).
-/

namespace Microjet.Cache

open Errorx Registry Trace

/-- A step of a cache that does not fail, expire or get invalidated, and of a `load` that
succeeds. -/
def Event.Sound {ρ τ : Type} : Event ρ τ → Prop
  | .read _ ok => ok = true
  | .reread _ ok => ok = true
  | .set _ ok => ok = true
  | .loaded _ res => ∃ v, res = .ok v
  | .invalidate _ => False
  | .delete _ _ => False
  | .evict => False
  | .foreign => False
  | _ => True

/-- How far the one load is. -/
def Progress {τ : Type} (loads : Nat) (values : List τ) : Option (Flight τ) → Prop
  | none => loads = 0 ∧ values = []
  | some .rereading => loads = 0 ∧ values = []
  | some .loading => loads = 0 ∧ values = []
  | some (.inLoad _) => loads = 1 ∧ values = []
  | some (.storing v _) => loads = 1 ∧ values = [v]
  | some (.ended _) => False

theorem Progress.loads_le {τ : Type} {loads : Nat} {values : List τ} {f : Option (Flight τ)}
    (h : Progress loads values f) : loads ≤ 1 := by
  cases f with
  | none => exact h.1.le.trans (Nat.zero_le 1)
  | some f =>
    cases f with
    | rereading | loading => exact h.1.le.trans (Nat.zero_le 1)
    | inLoad | storing => exact h.1.le
    | ended => exact h.elim

namespace Slot

variable {τ : Type} {K : Kind τ} {s s' : Slot Unit τ} {e : Event Unit τ}

/-- The key was loaded at most once. -/
inductive Once (s : Slot Unit τ) : Prop
  | cold (entry : s.entry = none) (flight : Progress s.loads s.values (s.flights ()))
      (calls : ∀ c ∈ s.calls, ∀ o, c.place ≠ .done o) (returned : s.returned = [])
  | warm (v : τ) (since : Nat) (entry : s.entry = some (.value v since))
      (flight : ∀ f, s.flights () = some f → f = .rereading ∨ f = .ended (.value v since))
      (calls : ∀ c ∈ s.calls, ∀ o, c.place = .done o → o = .value v since)
      (returned : ∀ r ∈ s.returned, r.outcome = .value v since)
      (loads : s.loads = 1) (values : s.values = [v])

theorem fly_unit (s : Slot Unit τ) (f : Flight τ) (r : Unit) :
    (s.fly r f).flights () = some f := by
  show Function.update s.flights () (some f) () = some f
  rw [Function.update_self]

theorem lookup_ne_none (hT : ∀ v, K.takes v = true) {v : τ} {since : Nat} :
    K.lookup (some (.value v since)) true ≠ none := by
  simp [Kind.lookup, hT]

theorem Moves.once_cold (he : e.Sound) (h : Moves K s e s') (entry : s.entry = none)
    (flight : Progress s.loads s.values (s.flights ()))
    (calls : ∀ c ∈ s.calls, ∀ o, c.place ≠ .done o) (returned : s.returned = []) : s'.Once := by
  cases h with
  | get hn =>
    refine .cold entry flight (fun c hc => ?_) returned
    rcases List.mem_cons.mp hc with rfl | hc
    · exact nofun
    · exact calls c hc
  | hit hc hplace hentry | rehit hf hentry =>
    cases entry.symm.trans hentry
  | miss | join =>
    exact .cold entry flight (calls_move calls fun _ _ _ => nofun) returned
  | start hc hplace hf =>
    have hnone : s.flights () = none := hf
    rw [hnone] at flight
    refine .cold entry ?_ (calls_move calls fun _ _ _ => nofun) returned
    rw [fly_unit]
    exact flight
  | remiss hf =>
    rw [hf] at flight
    refine .cold entry ?_ calls returned
    rw [fly_unit]
    exact flight
  | load hf =>
    rw [hf] at flight
    obtain ⟨hloads, hvalues⟩ := flight
    refine .cold entry ?_ calls returned
    show Progress (s.loads + 1) s.values ((s.fly () (.inLoad s.clock)).flights ())
    rw [fly_unit, hloads]
    exact ⟨rfl, hvalues⟩
  | @loaded r since v hf =>
    rw [hf] at flight
    obtain ⟨hloads, hvalues⟩ := flight
    refine .cold entry ?_ calls returned
    show Progress s.loads (v :: s.values) ((s.fly () (.storing v since)).flights ())
    rw [fly_unit, hvalues]
    exact ⟨hloads, rfl⟩
  | loadFailed =>
    obtain ⟨v, hv⟩ := he
    cases hv
  | @set r ok v since hf =>
    have hok : ok = true := he
    rw [hf] at flight
    obtain ⟨hloads, hvalues⟩ := flight
    refine .warm v since (by simp [hok]) (fun f hf' => ?_) (fun c hc o ho => ?_) ?_ hloads
      hvalues
    · have hf' : (s.fly () (.ended (.value v since))).flights () = some f := hf'
      rw [fly_unit] at hf'
      cases hf'
      exact .inr rfl
    · exact absurd ho (calls c hc o)
    · intro r hr
      have hr : r ∈ s.returned := hr
      rw [returned] at hr
      cases hr
  | finish hf =>
    rw [hf] at flight
    cases flight
  | ret hc hplace => exact absurd hplace (calls _ (get_mem hc) _)
  | invalidate | delete | evict | foreign => exact he.elim
  | return_ => exact .cold entry flight calls returned

variable (hT : ∀ v, K.asserts v = true ∧ K.takes v = true)

include hT

theorem Moves.once_warm (he : e.Sound)
    (h : Moves K s e s') {v : τ} {since : Nat} (entry : s.entry = some (.value v since))
    (flight : ∀ f, s.flights () = some f → f = .rereading ∨ f = .ended (.value v since))
    (calls : ∀ c ∈ s.calls, ∀ o, c.place = .done o → o = .value v since)
    (returned : ∀ r ∈ s.returned, r.outcome = .value v since)
    (loads : s.loads = 1) (values : s.values = [v]) : s'.Once := by
  cases h with
  | get hn =>
    refine .warm v since entry flight (fun c hc => ?_) returned loads values
    rcases List.mem_cons.mp hc with rfl | hc
    · exact nofun
    · exact calls c hc
  | hit hc hplace hentry =>
    cases entry.symm.trans hentry
    refine .warm v since entry flight (calls_move calls fun _ _ _ o ho => ?_) returned loads
      values
    cases ho
    rfl
  | miss hc hplace hmiss | remiss hf hmiss =>
    have hok : _ = true := he
    rw [entry, hok] at hmiss
    exact absurd hmiss (lookup_ne_none fun v => (hT v).2)
  | join =>
    exact .warm v since entry flight (calls_move calls fun _ _ _ => nofun) returned loads
      values
  | start =>
    refine .warm v since entry (fun f hf => ?_) (calls_move calls fun _ _ _ => nofun)
      returned loads values
    rw [fly_unit] at hf
    cases hf
    exact .inl rfl
  | rehit hf hentry =>
    cases entry.symm.trans hentry
    refine .warm v since entry (fun f hf => ?_) calls returned loads values
    rw [fly_unit] at hf
    cases hf
    exact .inr rfl
  | load hf | loadFailed hf | loaded hf | set hf =>
    rcases flight _ hf with hf | hf <;> cases hf
  | finish hf =>
    have ho := (flight _ hf).resolve_left nofun
    cases ho
    refine .warm v since entry (fun f hf => ?_) (calls_land calls fun _ _ _ _ _ o ho => ?_)
      returned loads values
    · have hf : Function.update s.flights () none () = some f := hf
      rw [Function.update_self] at hf
      cases hf
    · cases ho
      rfl
  | ret hc hplace =>
    cases calls _ (get_mem hc) _ hplace
    refine .warm v since entry flight (fun c hc => calls c (mem_remove.mp hc).1)
      (fun r hr => ?_) loads values
    rcases List.mem_cons.mp hr with rfl | hr
    · simp [Kind.deliver, (hT v).1]
    · exact returned r hr
  | invalidate | delete | evict | foreign => exact he.elim
  | return_ => exact .warm v since entry flight calls returned loads values

theorem Moves.once (hs : s.Once) (he : e.Sound) (h : Moves K s e s') : s'.Once := by
  cases hs with
  | cold entry flight calls returned => exact h.once_cold he entry flight calls returned
  | warm v since entry flight calls returned loads values =>
    exact h.once_warm hT he entry flight calls returned loads values

theorem Once.step (hs : s.Once) (he : e.Sound) (h : s.step K e = some s') : s'.Once := by
  obtain ⟨t, ht, rfl⟩ := moves h
  cases ht.once hT hs he with
  | cold entry flight calls returned => exact .cold entry flight calls returned
  | warm v since entry flight calls returned loads values =>
    exact .warm v since entry flight calls returned loads values

end Slot

/-- A loader over a cache that does not fail, expire or get invalidated on a key, with a `load`
that succeeds there, calls it for this key at most once, and every `Get` returns the value. Other
keys do not matter. -/
theorem load_at_most_once {κ τ : Type} [DecidableEq κ] (K : Kind τ)
    (hT : ∀ v, K.asserts v = true ∧ K.takes v = true) (es : List (κ × Event Unit τ))
    (s : κ → Slot Unit τ) (h : run (each (Slot.step K)) (fun _ => {}) es = some s) :
    (∀ k, (∀ e ∈ eventsOf k es, e.Sound) → (s k).loads ≤ 1 ∧
      ∀ r ∈ (s k).returned, ∃ v since, (s k).values = [v] ∧ r.outcome = .value v since) ∧
    ∀ k, run (Slot.step K) {} (eventsOf k es) = some (s k) := by
  refine ⟨fun k hsound => ?_, run_each h⟩
  have hinit : Slot.Once ({} : Slot Unit τ) := .cold rfl ⟨rfl, rfl⟩ nofun rfl
  have halong : Along (Slot.step K) (fun _ e => e.Sound) ({} : Slot Unit τ) (eventsOf k es) :=
    along_of_mem hsound
  have honce := run_inv (fun s e s' hs he h => Slot.Once.step hT hs he h) hinit halong
    (run_each h k)
  cases honce with
  | cold entry flight calls returned =>
    rw [returned]
    exact ⟨flight.loads_le, nofun⟩
  | warm v since entry flight calls returned loads values =>
    exact ⟨loads.le, fun r hr => ⟨v, since, values, returned r hr⟩⟩

def missTwice : List (Nat × Event Unit String) :=
  [.get 0 (), .get 1 (), .read 0 true, .read 1 true, .do_ 0, .reread () true, .load (),
    .loaded () (.ok "plan"), .set () true, .finish (), .do_ 1, .reread () true, .finish (),
    .ret 0, .ret 1].map fun e => (7, e)

theorem load_once_missTwice :
    ∃ s, run (each (Slot.step (newLoader "" fun _ => true))) (fun _ => {}) missTwice = some s ∧
      (s 7).returned = [⟨1, .value "plan" 6⟩, ⟨0, .value "plan" 6⟩] ∧ (s 7).loads ≤ 1 ∧
      ∀ r ∈ (s 7).returned, ∃ v since, (s 7).values = [v] ∧ r.outcome = .value v since := by
  have hsound : ∀ e ∈ eventsOf 7 missTwice, e.Sound := by
    intro e he
    simp only [missTwice, eventsOf, List.map_cons, List.map_nil, List.filterMap_cons,
      List.filterMap_nil, if_true, List.mem_cons, List.not_mem_nil, or_false] at he
    rcases he with rfl | rfl | rfl | rfl | rfl | rfl | rfl | rfl | rfl | rfl | rfl | rfl | rfl |
      rfl | rfl <;> first | trivial | rfl | exact ⟨_, rfl⟩
  refine ⟨_, rfl, rfl, ?_⟩
  exact (load_at_most_once (newLoader "" fun _ => true) (fun _ => ⟨rfl, rfl⟩) missTwice _ rfl).1 7
    hsound

end Microjet.Cache
