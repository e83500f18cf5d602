import Microjet.Proofs.LoaderMoves
import Mathlib.Data.Fintype.Basic

/-!
# Invalidation under concurrent loads

`Invalidate` leaves the flights alone: one whose `load` has begun before stores its value after
the entry has gone (`invalidate_outrun`). That is the only way an old value comes back, since a
step holds nothing older than what was `Held` before it (`Moves.held`).
-/

namespace Microjet.Cache

open Errorx Registry Trace

variable {ρ τ : Type}

def Outcome.since : Outcome τ → Option Nat
  | .value _ since => some since
  | .failed _ => none

def Place.since : Place τ → Option Nat
  | .done o => o.since
  | _ => none

def Flight.since : Flight τ → Option Nat
  | .inLoad since => some since
  | .storing _ since => some since
  | .ended o => o.since
  | _ => none

theorem Kind.deliver_since (K : Kind τ) (o : Outcome τ) : (K.deliver o).since = o.since := by
  cases o <;> rfl

namespace Slot

/-- A value from a load begun at `t` can still be given to a new caller. -/
inductive Held (s : Slot ρ τ) (t : Nat) : Prop
  | entry (v : τ) (h : s.entry = some (.value v t))
  | flight (r : ρ) (f : Flight τ) (h : s.flights r = some f) (hf : f.since = some t)

/-- Nothing that is held has been loaded before `b`, and nothing ever will. -/
def Clean (s : Slot ρ τ) (b : Nat) : Prop :=
  b ≤ s.clock ∧ ∀ t, s.Held t → b ≤ t

/-- What a `Get` has come by is not older than the `Invalidate`s that had returned before it. -/
def Heeds (s : Slot ρ τ) (started : Nat) (since : Option Nat) : Prop :=
  started < s.clock ∧ ∀ d ∈ s.dropped, d.ok = true → d.returned < started →
    ∀ t, since = some t → d.started ≤ t

/-- What has been deleted does not come back. -/
structure Reloads (s : Slot ρ τ) : Prop where
  started : ∀ d ∈ s.drops, d.started ≤ s.clock
  deleted : ∀ d ∈ s.drops, d.deleted = some true → s.Clean d.started
  dropped : ∀ d ∈ s.dropped, d.ok = true → s.Clean d.started
  calls : ∀ c ∈ s.calls, s.Heeds c.started c.place.since
  returned : ∀ r ∈ s.returned, s.Heeds r.started r.outcome.since

variable [DecidableEq ρ] {K : Kind τ} {s s' : Slot ρ τ} {e : Event ρ τ}

/-! ### What a step does -/

omit [DecidableEq ρ] in
theorem Held.congr {t : Nat} (h : s'.Held t) (hentry : s'.entry = s.entry)
    (hflights : s'.flights = s.flights) : s.Held t := by
  cases h with
  | entry v h => exact .entry v (hentry ▸ h)
  | flight r f h hf => exact .flight r f (hflights ▸ h) hf

theorem held_fly {r : ρ} {f : Flight τ} {t : Nat} (h : (s.fly r f).Held t) :
    s.Held t ∨ f.since = some t := by
  cases h with
  | entry v h => exact .inl (.entry v h)
  | flight r' f' h hf =>
    by_cases hr : r' = r
    · have h : Function.update s.flights r (some f) r' = some f' := h
      rw [hr, Function.update_self] at h
      cases h
      exact .inr hf
    · have h : Function.update s.flights r (some f) r' = some f' := h
      rw [Function.update_of_ne hr] at h
      exact .inl (.flight r' f' h hf)

theorem Moves.held (h : Moves K s e s') {t : Nat} (ht : s'.Held t) : s.Held t ∨ t = s.clock := by
  cases h with
  | get | hit | miss | join | ret | invalidate | return_ => exact .inl (ht.congr rfl rfl)
  | start => exact .inl (((held_fly ht).resolve_right nofun).congr rfl rfl)
  | remiss | loadFailed => exact .inl ((held_fly ht).resolve_right nofun)
  | rehit hf hentry =>
    rcases held_fly ht with ht | ht
    · exact .inl ht
    · cases ht
      exact .inl (.entry _ hentry)
  | @load r hf =>
    have ht : (s.fly r (.inLoad s.clock)).Held t := ht.congr rfl rfl
    rcases held_fly ht with ht | ht
    · exact .inl ht
    · cases ht
      exact .inr rfl
  | @loaded r since v hf =>
    have ht : (s.fly r (.storing v since)).Held t := ht.congr rfl rfl
    rcases held_fly ht with ht | ht
    · exact .inl ht
    · cases ht
      exact .inl (.flight r _ hf rfl)
  | @set r ok v since hf =>
    cases ht with
    | entry v' h =>
      cases ok with
      | true =>
        cases h
        exact .inl (.flight r _ hf rfl)
      | false => exact .inl (.entry v' h)
    | flight r' f' h hf' =>
      have ht : (s.fly r (.ended (.value v since))).Held t := .flight r' f' h hf'
      rcases held_fly ht with ht | ht
      · exact .inl ht
      · cases ht
        exact .inl (.flight r _ hf rfl)
  | @finish r o hf =>
    cases ht with
    | entry v h => exact .inl (.entry v h)
    | flight r' f' h hf' =>
      have h : Function.update s.flights r none r' = some f' := h
      by_cases hr : r' = r
      · rw [hr, Function.update_self] at h
        cases h
      · rw [Function.update_of_ne hr] at h
        exact .inl (.flight r' f' h hf')
  | @delete n ok =>
    cases ht with
    | entry v h =>
      cases ok with
      | true => cases h
      | false => exact .inl (.entry v h)
    | flight r f h hf => exact .inl (.flight r f h hf)
  | evict | foreign =>
    cases ht with
    | entry v h => cases h
    | flight r f h hf => exact .inl (.flight r f h hf)

theorem Moves.calls (h : Moves K s e s') {c : Call ρ τ} (hc : c ∈ s'.calls) :
    c.started = s.clock ∧ c.place.since = none ∨
      ∃ a ∈ s.calls, a.started = c.started ∧
        ∀ t, c.place.since = some t → a.place.since = some t ∨ s.Held t := by
  have hsame : ∀ a ∈ s.calls, c = a → ∃ a ∈ s.calls, a.started = c.started ∧
      ∀ t, c.place.since = some t → a.place.since = some t ∨ s.Held t := by
    rintro a ha rfl
    exact ⟨c, ha, rfl, fun t ht => .inl ht⟩
  have hmove : ∀ {n place}, (∀ t, place.since = some t → s.Held t) → c ∈ (s.move n place).calls →
      ∃ a ∈ s.calls, a.started = c.started ∧
        ∀ t, c.place.since = some t → a.place.since = some t ∨ s.Held t := by
    intro n place hplace hc
    obtain ⟨hold, -⟩ | ⟨a, ha, -, rfl⟩ := mem_modify.mp hc
    · exact hsame c hold rfl
    · exact ⟨a, ha, rfl, fun t ht => .inr (hplace t ht)⟩
  cases h with
  | get =>
    rcases List.mem_cons.mp hc with rfl | hc
    · exact .inl ⟨rfl, rfl⟩
    · exact .inr (hsame c hc rfl)
  | hit hc' hplace hentry =>
    refine .inr (hmove (fun t ht => ?_) hc)
    cases ht
    exact .entry _ hentry
  | miss | join | start =>
    refine .inr (hmove (fun t ht => ?_) hc)
    cases ht
  | @finish r o hf =>
    obtain ⟨a, ha, rfl⟩ := List.mem_map.mp hc
    rcases wake_cases (r := r) (o := o) a with hwake | ⟨-, -, hwake⟩
    · exact .inr (hsame a ha hwake)
    · rw [hwake]
      exact .inr ⟨a, ha, rfl, fun t ht => .inr (.flight r _ hf ht)⟩
  | ret => exact .inr (hsame c (mem_remove.mp hc).1 rfl)
  | rehit | remiss | load | loadFailed | loaded | set | invalidate | delete | return_ | evict
  | foreign => exact .inr (hsame c hc rfl)

theorem Moves.returned (h : Moves K s e s') {r : Returned τ} (hr : r ∈ s'.returned) :
    r ∈ s.returned ∨ ∃ c ∈ s.calls, c.started = r.started ∧ c.place.since = r.outcome.since := by
  cases h with
  | ret hc hplace =>
    rcases List.mem_cons.mp hr with rfl | hr
    · refine .inr ⟨_, get_mem hc, rfl, ?_⟩
      rw [hplace, Kind.deliver_since]
      rfl
    · exact .inl hr
  | _ => exact .inl hr

theorem Moves.drops (h : Moves K s e s') {d : Drop} (hd : d ∈ s'.drops) :
    d ∈ s.drops ∨ d.started = s.clock ∧ d.deleted = none ∨
      ∃ ok, e = .delete d.number ok ∧ d.deleted = some ok ∧ (ok = true → s'.entry = none) ∧
        ∃ a ∈ s.drops, a.number = d.number ∧ a.started = d.started := by
  cases h with
  | invalidate =>
    rcases List.mem_cons.mp hd with rfl | hd
    · exact .inr (.inl ⟨rfl, rfl⟩)
    · exact .inl hd
  | @delete n ok a =>
    obtain ⟨hold, -⟩ | ⟨a, ha, rfl, rfl⟩ := mem_modify.mp hd
    · exact .inl hold
    · exact .inr (.inr ⟨ok, rfl, rfl, fun hok => by rw [hok]; rfl, a, ha, rfl, rfl⟩)
  | return_ => exact .inl (mem_remove.mp hd).1
  | _ => exact .inl hd

theorem Moves.dropped (h : Moves K s e s') {d : Dropped} (hd : d ∈ s'.dropped) :
    d ∈ s.dropped ∨
      d.returned = s.clock ∧ ∃ a ∈ s.drops, a.started = d.started ∧ a.deleted = some d.ok := by
  cases h with
  | return_ hd' hdel =>
    rcases List.mem_cons.mp hd with rfl | hd
    · exact .inr ⟨rfl, _, get_mem hd', rfl, hdel⟩
    · exact .inl hd
  | _ => exact .inl hd

/-- When the entry is deleted, no flight has or loads a value from before the `Invalidate`. -/
def NoneInFlight (s : Slot ρ τ) : Event ρ τ → Prop
  | .delete n true =>
    ∀ d ∈ s.drops, d.number = n → ∀ r, ∀ f ∈ s.flights r, ∀ t ∈ f.since, d.started ≤ t
  | _ => True

instance [Fintype ρ] : ∀ (s : Slot ρ τ) e, Decidable (s.NoneInFlight e)
  | s, .delete n true => inferInstanceAs (Decidable
      (∀ d ∈ s.drops, d.number = n → ∀ r, ∀ f ∈ s.flights r, ∀ t ∈ f.since, d.started ≤ t))
  | _, .delete _ false => inferInstanceAs (Decidable True)
  | _, .get _ _ => inferInstanceAs (Decidable True)
  | _, .read _ _ => inferInstanceAs (Decidable True)
  | _, .do_ _ => inferInstanceAs (Decidable True)
  | _, .reread _ _ => inferInstanceAs (Decidable True)
  | _, .load _ => inferInstanceAs (Decidable True)
  | _, .loaded _ _ => inferInstanceAs (Decidable True)
  | _, .set _ _ => inferInstanceAs (Decidable True)
  | _, .finish _ => inferInstanceAs (Decidable True)
  | _, .ret _ => inferInstanceAs (Decidable True)
  | _, .invalidate _ => inferInstanceAs (Decidable True)
  | _, .return_ _ => inferInstanceAs (Decidable True)
  | _, .evict => inferInstanceAs (Decidable True)
  | _, .foreign => inferInstanceAs (Decidable True)

theorem Clean.step {b : Nat} (hb : s.Clean b) (h : Moves K s e s') :
    ({ s' with clock := s.clock + 1 } : Slot ρ τ).Clean b := by
  refine ⟨Nat.le_succ_of_le hb.1, fun t ht => ?_⟩
  have ht : s'.Held t := ht.congr rfl rfl
  rcases h.held ht with ht | rfl
  · exact hb.2 t ht
  · exact hb.1

theorem Heeds.step {started : Nat} {since since' : Option Nat} (hs : s.Reloads)
    (h : Moves K s e s') (hheeds : s.Heeds started since)
    (hsince : ∀ t, since' = some t → since = some t ∨ s.Held t) :
    ({ s' with clock := s.clock + 1 } : Slot ρ τ).Heeds started since' := by
  refine ⟨Nat.lt_succ_of_lt hheeds.1, fun d hd hok hret t ht => ?_⟩
  rcases h.dropped hd with hd | ⟨hnow, -⟩
  · rcases hsince t ht with ht | ht
    · exact hheeds.2 d hd hok hret t ht
    · exact (hs.dropped d hd hok).2 t ht
  · have hlt := hheeds.1
    omega

theorem Reloads.step (hs : s.Reloads) (he : s.NoneInFlight e) (h : s.step K e = some s') :
    s'.Reloads := by
  obtain ⟨t, ht, rfl⟩ := moves h
  constructor
  case started =>
    intro d hd
    rcases ht.drops hd with hd | ⟨hnow, -⟩ | ⟨ok, -, -, -, a, ha, -, hstarted⟩
    · exact Nat.le_succ_of_le (hs.started d hd)
    · exact hnow.le.trans (Nat.le_succ _)
    · rw [← hstarted]
      exact Nat.le_succ_of_le (hs.started a ha)
  case deleted =>
    intro d hd hdel
    rcases ht.drops hd with hd | ⟨-, hnone⟩ | ⟨ok, rfl, hok, hentry, a, ha, hn, hstarted⟩
    · exact (hs.deleted d hd hdel).step ht
    · cases hnone.symm.trans hdel
    · cases hok.symm.trans hdel
      refine ⟨Nat.le_succ_of_le (hstarted ▸ hs.started a ha), fun u hu => ?_⟩
      cases hu with
      | entry v hv => cases (hentry rfl).symm.trans hv
      | flight r f hr hf =>
        cases ht
        rw [← hstarted]
        exact he a ha hn r f hr u hf
  case dropped =>
    intro d hd hok
    rcases ht.dropped hd with hd | ⟨-, a, ha, hstarted, hdel⟩
    · exact (hs.dropped d hd hok).step ht
    · rw [hok] at hdel
      rw [← hstarted]
      exact (hs.deleted a ha hdel).step ht
  case calls =>
    intro c hc
    rcases ht.calls hc with ⟨hnow, hnone⟩ | ⟨a, ha, hstarted, hsince⟩
    · refine ⟨hnow.le.trans_lt (Nat.lt_succ_self _), fun d _ _ _ u hu => ?_⟩
      cases hnone.symm.trans hu
    · rw [← hstarted]
      exact (hs.calls a ha).step hs ht hsince
  case returned =>
    intro r hr
    rcases ht.returned hr with hr | ⟨c, hc, hstarted, hsince⟩
    · exact (hs.returned r hr).step hs ht fun u hu => .inl hu
    · rw [← hstarted]
      exact (hs.calls c hc).step hs ht fun u hu => .inl (hsince.trans hu)

end Slot

/-- A `Get` that starts after an `Invalidate` has returned without an error never returns a value
loaded from before it was called, as long as no deletion meets a flight that holds such a value. -/
theorem invalidate_reloads {κ : Type} [DecidableEq κ] [DecidableEq ρ] (K : Kind τ)
    (es : List (κ × Event ρ τ)) (s : κ → Slot ρ τ)
    (h : run (each (Slot.step K)) (fun _ => {}) es = some s) (k : κ)
    (hflights : Along (Slot.step K) Slot.NoneInFlight {} (eventsOf k es)) :
    ∀ d ∈ (s k).dropped, d.ok = true → ∀ r ∈ (s k).returned, d.returned < r.started →
      ∀ v since, r.outcome = .value v since → d.started ≤ since := by
  have hinit : Slot.Reloads ({} : Slot ρ τ) := ⟨nofun, nofun, nofun, nofun, nofun⟩
  have hrun := run_inv (fun s e s' hs he h => Slot.Reloads.step hs he h) hinit hflights
    (run_each h k)
  intro d hd hok r hr hret v since hv
  refine (hrun.returned r hr).2 d hd hok hret since ?_
  rw [hv]
  rfl

def reload : List (Nat × Event Unit String) :=
  [.get 0 (), .read 0 true, .do_ 0, .reread () true, .load (), .loaded () (.ok "free"),
    .set () true, .finish (), .ret 0, .invalidate 0, .delete 0 true, .return_ 0, .get 1 (),
    .read 1 true, .do_ 1, .reread () true, .load (), .loaded () (.ok "paid"), .set () true,
    .finish (), .ret 1].map fun e => (7, e)

theorem invalidate_reloads_reload :
    ∃ s, run (each (Slot.step (newJSONLoader "" fun _ => true))) (fun _ => {}) reload = some s ∧
      (s 7).dropped = [⟨9, 11, true⟩] ∧
      (s 7).returned = [⟨12, .value "paid" 16⟩, ⟨0, .value "free" 4⟩] ∧
      ∀ d ∈ (s 7).dropped, d.ok = true → ∀ r ∈ (s 7).returned, d.returned < r.started →
        ∀ v since, r.outcome = .value v since → d.started ≤ since := by
  have hflights : Along (Slot.step (newJSONLoader "" fun _ => true)) Slot.NoneInFlight
      ({} : Slot Unit String) (eventsOf 7 reload) := by decide +kernel
  refine ⟨_, rfl, rfl, rfl, ?_⟩
  exact invalidate_reloads (newJSONLoader "" fun _ => true) reload _ rfl 7 hflights

/-- The entry is deleted while a flight is in `load`, which then stores what it has read before. -/
theorem invalidate_outrun :
    ∃ s, run (each (Slot.step (newLoader "" fun _ => true))) (fun _ => {})
        ([.get 0 (), .read 0 true, .do_ 0, .reread () true, .load (), .invalidate 0,
          .delete 0 true, .return_ 0, .loaded () (.ok "free"), .set () true, .finish (), .ret 0,
          .get 1 (), .read 1 true, .ret 1].map fun e => (7, e) :
          List (Nat × Event Unit String)) = some s ∧
      ∃ d ∈ (s 7).dropped, d.ok = true ∧ ∃ r ∈ (s 7).returned, d.returned < r.started ∧
        ∃ v since, r.outcome = .value v since ∧ since < d.started := by
  refine ⟨_, rfl, ⟨5, 7, true⟩, .head _, rfl, ⟨12, .value "free" 4⟩, .head _, ?_, "free", 4,
    rfl, ?_⟩
  · decide
  · decide

end Microjet.Cache
