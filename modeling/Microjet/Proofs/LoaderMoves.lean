import Microjet.Cache.Loader

/-!
# What a step of a loader can be

`Moves` lists the steps with what they need and what they do, once. The invariants of the
modules after this one are about these and never look at `act`.
-/

namespace Microjet.Cache

open Errorx Registry Trace

namespace Slot

variable {ρ τ : Type} [DecidableEq ρ]

/-- The steps, as a relation. -/
inductive Moves (K : Kind τ) (s : Slot ρ τ) : Event ρ τ → Slot ρ τ → Prop
  | get {n : Nat} {r : ρ} (hn : Registry.get Call.number s.calls n = none) :
      Moves K s (.get n r) { s with calls := ⟨n, r, s.clock, .reading⟩ :: s.calls }
  | hit {n : Nat} {ok : Bool} {c : Call ρ τ} {v : τ} {since : Nat}
      (hc : Registry.get Call.number s.calls n = some c) (hplace : c.place = .reading)
      (hentry : s.entry = some (.value v since)) :
      Moves K s (.read n ok) (s.move n (.done (.value v since)))
  | miss {n : Nat} {ok : Bool} {c : Call ρ τ}
      (hc : Registry.get Call.number s.calls n = some c) (hplace : c.place = .reading)
      (hmiss : K.lookup s.entry ok = none) : Moves K s (.read n ok) (s.move n .doing)
  | join {n : Nat} {c : Call ρ τ} {f : Flight τ}
      (hc : Registry.get Call.number s.calls n = some c) (hplace : c.place = .doing)
      (hf : s.flights c.loader = some f) : Moves K s (.do_ n) (s.move n .waiting)
  | start {n : Nat} {c : Call ρ τ}
      (hc : Registry.get Call.number s.calls n = some c) (hplace : c.place = .doing)
      (hf : s.flights c.loader = none) :
      Moves K s (.do_ n) ((s.move n .waiting).fly c.loader .rereading)
  | rehit {r : ρ} {ok : Bool} {v : τ} {since : Nat} (hf : s.flights r = some .rereading)
      (hentry : s.entry = some (.value v since)) :
      Moves K s (.reread r ok) (s.fly r (.ended (.value v since)))
  | remiss {r : ρ} {ok : Bool} (hf : s.flights r = some .rereading)
      (hmiss : K.lookup s.entry ok = none) : Moves K s (.reread r ok) (s.fly r .loading)
  | load {r : ρ} (hf : s.flights r = some .loading) :
      Moves K s (.load r) { s.fly r (.inLoad s.clock) with loads := s.loads + 1 }
  | loadFailed {r : ρ} {since : Nat} {err : Err} (hf : s.flights r = some (.inLoad since)) :
      Moves K s (.loaded r (.error err)) (s.fly r (.ended (.failed err)))
  | loaded {r : ρ} {since : Nat} {v : τ} (hf : s.flights r = some (.inLoad since)) :
      Moves K s (.loaded r (.ok v))
        { s.fly r (.storing v since) with values := v :: s.values }
  | set {r : ρ} {ok : Bool} {v : τ} {since : Nat} (hf : s.flights r = some (.storing v since)) :
      Moves K s (.set r ok) { s.fly r (.ended (.value v since)) with
        entry := if ok then some (.value v since) else s.entry }
  | finish {r : ρ} {o : Outcome τ} (hf : s.flights r = some (.ended o)) :
      Moves K s (.finish r) (s.land r o)
  | ret {n : Nat} {c : Call ρ τ} {o : Outcome τ}
      (hc : Registry.get Call.number s.calls n = some c) (hplace : c.place = .done o) :
      Moves K s (.ret n) { s with
        calls := remove Call.number s.calls n
        returned := ⟨c.started, K.deliver o⟩ :: s.returned }
  | invalidate {n : Nat} (hn : Registry.get Drop.number s.drops n = none) :
      Moves K s (.invalidate n)
        { s with drops := { number := n, started := s.clock } :: s.drops }
  | delete {n : Nat} {ok : Bool} {d : Drop} (hd : Registry.get Drop.number s.drops n = some d)
      (hdel : d.deleted = none) :
      Moves K s (.delete n ok) { s with
        entry := if ok then none else s.entry
        drops := modify Drop.number s.drops n fun d => { d with deleted := some ok } }
  | return_ {n : Nat} {ok : Bool} {d : Drop} (hd : Registry.get Drop.number s.drops n = some d)
      (hdel : d.deleted = some ok) :
      Moves K s (.return_ n) { s with
        drops := remove Drop.number s.drops n
        dropped := ⟨d.started, s.clock, ok⟩ :: s.dropped }
  | evict : Moves K s .evict { s with entry := none }
  | foreign : Moves K s .foreign { s with entry := some .foreign }

variable {K : Kind τ} {s s' : Slot ρ τ} {e : Event ρ τ}

theorem lookup_some {entry : Option (Entry τ)} {ok : Bool} {v : τ} {since : Nat}
    (h : K.lookup entry ok = some (v, since)) : entry = some (.value v since) := by
  unfold Kind.lookup at h
  split at h
  · split at h
    · cases h
      rfl
    · cases h
  · cases h

theorem moves_act (h : s.act K e = some s') : Moves K s e s' := by
  cases e with
  | get n r =>
    simp only [act] at h
    split at h
    · cases h
    · next hn =>
        cases h
        exact .get (by simpa using hn)
  | read n ok =>
    obtain ⟨c, hc, h⟩ := Option.bind_eq_some_iff.mp h
    split at h
    · next hplace =>
        split at h
        · next hlook =>
            cases h
            exact .hit hc hplace (lookup_some hlook)
        · next hlook =>
            cases h
            exact .miss hc hplace hlook
    · cases h
  | do_ n =>
    obtain ⟨c, hc, h⟩ := Option.bind_eq_some_iff.mp h
    split at h
    · next hplace =>
        split at h
        · next hf =>
            cases h
            exact .join hc hplace hf
        · next hf =>
            cases h
            exact .start hc hplace hf
    · cases h
  | reread r ok =>
    simp only [act] at h
    split at h
    · next hf =>
        split at h
        · next hlook =>
            cases h
            exact .rehit hf (lookup_some hlook)
        · next hlook =>
            cases h
            exact .remiss hf hlook
    · cases h
  | load r =>
    simp only [act] at h
    split at h
    · next hf =>
        cases h
        exact .load hf
    · cases h
  | loaded r res =>
    simp only [act] at h
    split at h
    · next hf =>
        cases res with
        | error err =>
          cases h
          exact .loadFailed hf
        | ok v =>
          cases h
          exact .loaded hf
    · cases h
  | set r ok =>
    simp only [act] at h
    split at h
    · next hf =>
        cases h
        exact .set hf
    · cases h
  | finish r =>
    simp only [act] at h
    split at h
    · next hf =>
        cases h
        exact .finish hf
    · cases h
  | ret n =>
    obtain ⟨c, hc, h⟩ := Option.bind_eq_some_iff.mp h
    split at h
    · next hplace =>
        cases h
        exact .ret hc hplace
    · cases h
  | invalidate n =>
    simp only [act] at h
    split at h
    · cases h
    · next hn =>
        cases h
        exact .invalidate (by simpa using hn)
  | delete n ok =>
    obtain ⟨d, hd, h⟩ := Option.bind_eq_some_iff.mp h
    split at h
    · next hdel =>
        cases h
        exact .delete hd hdel
    · cases h
  | return_ n =>
    obtain ⟨d, hd, h⟩ := Option.bind_eq_some_iff.mp h
    split at h
    · cases h
    · next hdel =>
        cases h
        exact .return_ hd hdel
  | evict =>
    cases h
    exact .evict
  | foreign =>
    cases h
    exact .foreign

theorem moves (h : s.step K e = some s') :
    ∃ t, Moves K s e t ∧ s' = { t with clock := s.clock + 1 } := by
  obtain ⟨t, ht, rfl⟩ := Option.map_eq_some_iff.mp h
  exact ⟨t, moves_act ht, rfl⟩

/-! ### The calls under way -/

section

variable {P : Call ρ τ → Prop} {n : Nat} {place : Place τ} {r : ρ} {o : Outcome τ}

omit [DecidableEq ρ] in
theorem calls_move (h : ∀ c ∈ s.calls, P c) (hp : ∀ c ∈ s.calls, P c → P { c with place }) :
    ∀ c ∈ (s.move n place).calls, P c := by
  intro c hc
  obtain ⟨hold, -⟩ | ⟨a, ha, -, rfl⟩ := mem_modify.mp hc
  · exact h c hold
  · exact hp a ha (h a ha)

theorem wake_cases (c : Call ρ τ) :
    wake r o c = c ∨
      c.place = .waiting ∧ c.loader = r ∧ wake r o c = { c with place := .done o } := by
  rw [wake]
  split
  · next hplace =>
      split
      · next hr => exact .inr ⟨hplace, hr, rfl⟩
      · exact .inl rfl
  · exact .inl rfl

theorem calls_land (h : ∀ c ∈ s.calls, P c)
    (hp : ∀ c ∈ s.calls, P c → c.place = .waiting → c.loader = r → P { c with place := .done o }) :
    ∀ c ∈ (s.land r o).calls, P c := by
  intro c hc
  obtain ⟨a, ha, rfl⟩ := List.mem_map.mp hc
  rcases wake_cases a with hsame | ⟨hplace, hr, hwake⟩
  · rw [hsame]
    exact h a ha
  · rw [hwake]
    exact hp a ha (h a ha) hplace hr

end

end Slot

end Microjet.Cache
