import Microjet.Tenant.Cache
import Microjet.Lib.Run

/-!
# Invalidation under concurrent lookups

An `Invalidate` between a lookup's question and its write deletes nothing, and the next lookup is
served an answer from before (`served_stale`). That is the only way: a time before which no
answer is `Held` stays one (`LookupEffect.held`).
-/

namespace Microjet.Tenant

open Trace Registry

namespace CachedStore

variable {ι τ : Type} [DecidableEq ι] {c : CachedStore ι τ} {id : ι} {now : Int}

theorem remember_store (entry : CacheEntry τ) (ttl : Int) :
    (decide (0 < ttl) = true ∧ ∃ entry', c.remember id entry ttl now =
      { c with cache := Function.update c.cache id (some entry') }) ∨
    (decide (0 < ttl) = false ∧ c.remember id entry ttl now = c) := by
  unfold remember
  split
  · next hle => exact .inr ⟨by simpa using hle, rfl⟩
  · next hlt => exact .inl ⟨by simpa using hlt, _, rfl⟩

theorem settle_store (id : ι) (a : Answer τ) (now : Int) :
    (c.keeps a = true ∧ ∃ entry,
      (c.settle id a now).2 = { c with cache := Function.update c.cache id (some entry) }) ∨
    (c.keeps a = false ∧ (c.settle id a now).2 = c) := by
  obtain ⟨tenant, err⟩ := a
  cases err with
  | some err =>
    by_cases hnf : err.isNotFoundError = true
    · simp only [keeps, settle, hnf, if_true, Bool.true_and]
      exact remember_store _ _
    · exact .inr ⟨by simp [keeps, hnf], by simp [settle, hnf]⟩
  | none =>
    cases tenant with
    | none => exact remember_store _ _
    | some t => exact remember_store _ _

end CachedStore

namespace Service

section Effect

variable {ι τ : Type} {s s' : Service ι τ}

/-- An answer about `id` that was given at `t` can still be served. -/
def Held (s : Service ι τ) (id : ι) (t : Nat) : Prop :=
  (∃ entry, s.store.cache id = some entry ∧ s.origin id = t) ∨
  ∃ l ∈ s.lookups, l.id = id ∧ ∃ a, l.place = .answered a t ∧ s.store.keeps a = true

/-- The lookup has just begun, or was there before. -/
def Continues (s : Service ι τ) (l : Lookup ι τ) : Prop :=
  (l.started = s.clock ∧ l.place = .loading) ∨
  ∃ l₀ ∈ s.lookups, l₀.id = l.id ∧ l₀.started = l.started ∧
    ∀ a t, l.place = .answered a t → l₀.place = .answered a t ∨ t = s.clock

/-- A lookup was about to return this. -/
def Answers (s : Service ι τ) (f : Found ι τ) : Prop :=
  ∃ l ∈ s.lookups, l.id = f.id ∧ l.started = f.started ∧
    ((∃ entry, s.store.cache f.id = some entry ∧ s.origin f.id = f.answeredAt) ∨
      ∃ a, l.place = .answered a f.answeredAt)

/-- What a step of a lookup can do. -/
structure LookupEffect (s s' : Service ι τ) : Prop where
  drops : s'.drops = s.drops
  dropped : s'.dropped = s.dropped
  keeps : ∀ a, s'.store.keeps a = s.store.keeps a
  lookups : ∀ l ∈ s'.lookups, s.Continues l
  found : ∀ f ∈ s'.found, f ∈ s.found ∨ s.Answers f
  cache : ∀ id entry, s'.store.cache id = some entry → s.Held id (s'.origin id)

theorem LookupEffect.held (h : LookupEffect s s') {id : ι} {t : Nat}
    (hheld : s'.Held id t) : s.Held id t ∨ t = s.clock := by
  obtain ⟨entry, hentry, horigin⟩ | ⟨l, hl, hid, a, hplace, hkeeps⟩ := hheld
  · exact .inl (horigin ▸ h.cache id entry hentry)
  · obtain ⟨_, hload⟩ | ⟨l₀, hl₀, hid₀, _, hans⟩ := h.lookups l hl
    · rw [hload] at hplace
      simp at hplace
    · obtain hplace₀ | hnow := hans a t hplace
      · exact .inl (.inr ⟨l₀, hl₀, hid₀.trans hid, a, hplace₀, h.keeps a ▸ hkeeps⟩)
      · exact .inr hnow

variable {l : Lookup ι τ}

theorem continues_self (hl : l ∈ s.lookups) : s.Continues l :=
  .inr ⟨l, hl, rfl, rfl, fun _ _ h => .inl h⟩

theorem held_origin {id : ι} {entry : CacheEntry τ} (h : s.store.cache id = some entry) :
    s.Held id (s.origin id) :=
  .inl ⟨entry, h, rfl⟩

theorem continues_move {n : Nat} {place : Place τ}
    (hplace : ∀ a t, place = .answered a t → t = s.clock) :
    ∀ l ∈ (s.move n place).lookups, s.Continues l := by
  intro l hl
  obtain ⟨hl, _⟩ | ⟨l₀, hl₀, _, rfl⟩ := mem_modify.mp hl
  · exact continues_self hl
  · exact .inr ⟨l₀, hl₀, rfl, rfl, fun a t h => .inr (hplace a t h)⟩

theorem effect_move {n : Nat} {place : Place τ}
    (hplace : ∀ a t, place = .answered a t → t = s.clock) :
    LookupEffect s (s.move n place) where
  drops := rfl
  dropped := rfl
  keeps _ := rfl
  lookups := continues_move hplace
  found _ hf := .inl hf
  cache _ _ h := held_origin h

theorem found_finish {answer : Answer τ} {t : Nat} (h : s.Answers ⟨l.id, l.started, answer, t⟩) :
    ∀ f ∈ (s.finish l answer t).found, f ∈ s.found ∨ s.Answers f := by
  intro f hf
  obtain rfl | hf := List.mem_cons.mp hf
  · exact .inr h
  · exact .inl hf

theorem effect_load {now : Int} (hl : l ∈ s.lookups) :
    LookupEffect s (s.loadStep l now) := by
  unfold loadStep
  split
  · exact effect_move (by simp)
  · next entry hentry =>
      split
      · exact {
          drops := rfl
          dropped := rfl
          keeps := fun _ => rfl
          lookups := fun l' hl' => continues_self (mem_remove.mp hl').1
          found := found_finish ⟨l, hl, rfl, rfl, .inl ⟨entry, hentry, rfl⟩⟩
          cache := fun _ _ h => held_origin h }
      · exact effect_move (by simp)

end Effect

variable {ι τ : Type} [DecidableEq ι] {s s' : Service ι τ}

variable {n : Nat}

theorem effect_expire {l : Lookup ι τ} :
    LookupEffect s { s.move n .asking with store := s.store.invalidate l.id } where
  drops := rfl
  dropped := rfl
  keeps _ := rfl
  lookups := continues_move (by simp)
  found _ hf := .inl hf
  cache := by
    intro id entry h
    have h : Function.update s.store.cache l.id none id = some entry := h
    by_cases hid : id = l.id
    · rw [hid, Function.update_self] at h
      simp at h
    · rw [Function.update_of_ne hid] at h
      exact held_origin h

variable {t : Nat}

theorem effect_remember {l : Lookup ι τ} {a : Answer τ} {now : Int} (hl : l ∈ s.lookups)
    (hplace : l.place = .answered a t) :
    LookupEffect s (s.rememberStep l a t now) where
  drops := rfl
  dropped := rfl
  keeps := by
    intro b
    show (s.store.settle l.id a now).2.keeps b = _
    obtain ⟨_, entry, hstore⟩ | ⟨_, hstore⟩ := s.store.settle_store l.id a now
    · rw [hstore]
      rfl
    · rw [hstore]
  lookups := fun l' hl' => continues_self (mem_remove.mp hl').1
  found := found_finish ⟨l, hl, rfl, rfl, .inr ⟨a, hplace⟩⟩
  cache := by
    intro id entry h
    have h : (s.store.settle l.id a now).2.cache id = some entry := h
    show s.Held id ((if s.store.keeps a then Function.update s.origin l.id t
      else s.origin) id)
    obtain ⟨hkeeps, entry', hstore⟩ | ⟨hkeeps, hstore⟩ := s.store.settle_store l.id a now
    · rw [if_pos hkeeps]
      rw [hstore] at h
      have h : Function.update s.store.cache l.id (some entry') id = some entry := h
      by_cases hid : id = l.id
      · rw [hid, Function.update_self]
        exact .inr ⟨l, hl, rfl, a, hplace, hkeeps⟩
      · rw [Function.update_of_ne hid]
        rw [Function.update_of_ne hid] at h
        exact held_origin h
    · rw [hkeeps, if_neg (by simp)]
      rw [hstore] at h
      exact held_origin h

/-! ### The invariant -/

/-- Nothing about these tenants is held from before `t`. -/
def Barrier (s : Service ι τ) (target : Option ι) (t : Nat) : Prop :=
  ∀ id, covers target id = true → ∀ u, s.Held id u → t ≤ u

/-- No lookup returned an answer from before an `Invalidate` or `Clear` that had returned. -/
def Fresh (s : Service ι τ) : Prop :=
  ∀ f ∈ s.found, ∀ d ∈ s.dropped, covers d.target f.id = true →
    d.returned < f.started → d.started ≤ f.answeredAt

/-- What holds of every state. -/
structure Safe (s : Service ι τ) : Prop where
  distinct : Distinct Drop.number s.drops
  lookups : ∀ l ∈ s.lookups, l.started < s.clock ∧
    ∀ a t, l.place = .answered a t → l.started ≤ t
  found : ∀ f ∈ s.found, f.started < s.clock
  drops : ∀ d ∈ s.drops, d.started < s.clock
  dropped : ∀ d ∈ s.dropped, d.started ≤ d.returned ∧ d.returned < s.clock
  done : ∀ d ∈ s.drops, d.done = true → s.Barrier d.target d.started
  barrier : ∀ d ∈ s.dropped, s.Barrier d.target d.started
  fresh : s.Fresh

theorem Barrier.of_held {target : Option ι} (h : s.Barrier target t)
    (hheld : ∀ id u, s'.Held id u → s.Held id u ∨ t ≤ u) : s'.Barrier target t := by
  intro id hid u hu
  obtain hu | hle := hheld id u hu
  · exact h id hid u hu
  · exact hle

theorem Safe.answers {f : Found ι τ} (hs : s.Safe) (hf : s.Answers f) :
    f.started < s.clock ∧ ∀ d ∈ s.dropped, covers d.target f.id = true →
      d.returned < f.started → d.started ≤ f.answeredAt := by
  obtain ⟨l, hl, hid, hstart, hans⟩ := hf
  refine ⟨hstart ▸ (hs.lookups l hl).1, fun d hd hcov hret => ?_⟩
  obtain ⟨entry, hentry, horigin⟩ | ⟨a, hplace⟩ := hans
  · exact hs.barrier d hd f.id hcov _ (horigin ▸ held_origin hentry)
  · -- its own question, which it asked after the call had returned
    have hasked := (hs.lookups l hl).2 a _ hplace
    have hd := (hs.dropped d hd).1
    omega

theorem Safe.effect (hs : s.Safe) (h : LookupEffect s s') :
    Safe { s' with clock := s.clock + 1 } := by
  have hbarrier : ∀ {target t}, t < s.clock → s.Barrier target t →
      Barrier { s' with clock := s.clock + 1 } target t := by
    intro target t ht hb
    refine hb.of_held fun id u hu => ?_
    obtain hu | hnow := h.held hu
    · exact .inl hu
    · exact .inr (by omega)
  exact {
    distinct := h.drops.symm ▸ hs.distinct
    lookups := by
      intro l hl
      show l.started < s.clock + 1 ∧ _
      obtain ⟨hstart, hload⟩ | ⟨l₀, hl₀, _, hstart, hans⟩ := h.lookups l hl
      · exact ⟨by omega, fun a t hplace => by rw [hload] at hplace; simp at hplace⟩
      · obtain ⟨hlt, hasked⟩ := hs.lookups l₀ hl₀
        refine ⟨by omega, fun a t hplace => ?_⟩
        obtain hplace | hnow := hans a t hplace
        · exact hstart ▸ hasked a t hplace
        · omega
    found := by
      intro f hf
      show f.started < s.clock + 1
      obtain hf | hf := h.found f hf
      · exact Nat.lt_succ_of_lt (hs.found f hf)
      · exact Nat.lt_succ_of_lt (hs.answers hf).1
    drops := fun d hd => Nat.lt_succ_of_lt (hs.drops d (h.drops ▸ hd))
    dropped := by
      intro d hd
      obtain ⟨hle, hlt⟩ := hs.dropped d (h.dropped ▸ hd)
      exact ⟨hle, Nat.lt_succ_of_lt hlt⟩
    done := by
      intro d hd hdone
      have hd := h.drops ▸ hd
      exact hbarrier (hs.drops d hd) (hs.done d hd hdone)
    barrier := by
      intro d hd
      have hd := h.dropped ▸ hd
      obtain ⟨hle, hlt⟩ := hs.dropped d hd
      exact hbarrier (by omega) (hs.barrier d hd)
    fresh := by
      intro f hf d hd hcov hret
      have hd := h.dropped ▸ hd
      obtain hf | hf := h.found f hf
      · exact hs.fresh f hf d hd hcov hret
      · exact (hs.answers hf).2 d hd hcov hret }

/-! ### The calls that drop entries -/

/-- The lookup has an answer from before `t` in hand. -/
def Outdated (s : Service ι τ) (t : Nat) (l : Lookup ι τ) : Bool :=
  match l.place with
  | .answered a u => s.store.keeps a && decide (u < t)
  | _ => false

/-- When the entries go, no lookup of them has an older answer in hand that it will keep. -/
def NothingOlder (s : Service ι τ) : Event ι τ → Prop
  | .apply n =>
    ∀ d ∈ get Drop.number s.drops n, ∀ l ∈ s.lookups, covers d.target l.id = true →
      s.Outdated d.started l = false
  | _ => True

instance : ∀ (s : Service ι τ) (e : Event ι τ), Decidable (s.NothingOlder e)
  | s, .apply n =>
    inferInstanceAs (Decidable (∀ d ∈ get Drop.number s.drops n, ∀ l ∈ s.lookups,
      covers d.target l.id = true → s.Outdated d.started l = false))
  | _, .find .. | _, .load .. | _, .expire .. | _, .answer .. | _, .remember ..
  | _, .drop .. | _, .return_ .. => inferInstanceAs (Decidable True)

variable {d : Drop ι}

theorem apply_cache {id : ι} {entry : CacheEntry τ}
    (h : (s.applyStep d).store.cache id = some entry) :
    s.store.cache id = some entry ∧ covers d.target id = false := by
  obtain ⟨n, target, started, done⟩ := d
  cases target with
  | none =>
    have h : (none : Option (CacheEntry τ)) = some entry := h
    simp at h
  | some i =>
    have h : Function.update s.store.cache i none id = some entry := h
    by_cases hid : id = i
    · rw [hid, Function.update_self] at h
      simp at h
    · rw [Function.update_of_ne hid] at h
      exact ⟨h, by simpa [covers] using fun heq => hid heq.symm⟩

theorem apply_keeps (a : Answer τ) :
    (s.applyStep d).store.keeps a = s.store.keeps a := by
  obtain ⟨n, target, started, done⟩ := d
  cases target <;> rfl

theorem apply_held {id : ι} (h : (s.applyStep d).Held id t) :
    s.Held id t ∧ (covers d.target id = true →
      ∃ l ∈ s.lookups, l.id = id ∧ ∃ a, l.place = .answered a t ∧ s.store.keeps a = true) := by
  obtain ⟨entry, hentry, horigin⟩ | ⟨l, hl, hid, a, hplace, hkeeps⟩ := h
  · obtain ⟨hentry, hcov⟩ := apply_cache hentry
    exact ⟨.inl ⟨entry, hentry, horigin⟩, fun h => absurd h (by simp [hcov])⟩
  · rw [apply_keeps] at hkeeps
    exact ⟨.inr ⟨l, hl, hid, a, hplace, hkeeps⟩, fun _ => ⟨l, hl, hid, a, hplace, hkeeps⟩⟩

theorem Safe.apply (hs : s.Safe) (hget : get Drop.number s.drops n = some d)
    (hcond : s.NothingOlder (.apply n)) :
    Safe { s.applyStep d with clock := s.clock + 1 } := by
  have hbarrier : ∀ {target t}, s.Barrier target t →
      Barrier { s.applyStep d with clock := s.clock + 1 } target t :=
    fun hb => hb.of_held fun _ _ hu => .inl (apply_held hu).1
  have hnew : Barrier { s.applyStep d with clock := s.clock + 1 } d.target d.started := by
    intro id hcov u hu
    obtain ⟨l, hl, rfl, a, hplace, hkeeps⟩ := (apply_held hu).2 hcov
    have hnot := hcond d hget l hl hcov
    rw [Outdated, hplace] at hnot
    simpa [hkeeps] using hnot
  -- the number is one call's, so the others are as they were
  have hdrops : ∀ d' ∈ (s.applyStep d).drops,
      d' ∈ s.drops ∨ (d'.target = d.target ∧ d'.started = d.started) := by
    intro d' hd'
    obtain ⟨hd', _⟩ | ⟨d₀, hd₀, hnum, rfl⟩ := mem_modify.mp hd'
    · exact .inl hd'
    · rw [hs.distinct.eq hd₀ (get_mem hget) hnum]
      exact .inr ⟨rfl, rfl⟩
  exact {
    distinct := hs.distinct.modify fun _ => rfl
    lookups := fun l hl => ⟨Nat.lt_succ_of_lt (hs.lookups l hl).1, (hs.lookups l hl).2⟩
    found := fun f hf => Nat.lt_succ_of_lt (hs.found f hf)
    drops := by
      intro d' hd'
      obtain hd' | ⟨_, hstart⟩ := hdrops d' hd'
      · exact Nat.lt_succ_of_lt (hs.drops d' hd')
      · exact Nat.lt_succ_of_lt (hstart ▸ hs.drops d (get_mem hget))
    dropped := fun d' hd' =>
      ⟨(hs.dropped d' hd').1, Nat.lt_succ_of_lt (hs.dropped d' hd').2⟩
    done := by
      intro d' hd' hdone
      obtain hd' | ⟨htarget, hstart⟩ := hdrops d' hd'
      · exact hbarrier (hs.done d' hd' hdone)
      · rw [htarget, hstart]
        exact hnew
    barrier := fun d' hd' => hbarrier (hs.barrier d' hd')
    fresh := hs.fresh }

theorem Safe.drop {target : Option ι} (hs : s.Safe) (hnew : get Drop.number s.drops n = none) :
    Safe { s with
      drops := ⟨n, target, s.clock, false⟩ :: s.drops
      clock := s.clock + 1 } where
  distinct := hs.distinct.cons hnew
  lookups := fun l hl => ⟨Nat.lt_succ_of_lt (hs.lookups l hl).1, (hs.lookups l hl).2⟩
  found := fun f hf => Nat.lt_succ_of_lt (hs.found f hf)
  drops := by
    intro d hd
    obtain rfl | hd := List.mem_cons.mp hd
    · exact Nat.lt_succ_self s.clock
    · exact Nat.lt_succ_of_lt (hs.drops d hd)
  dropped := fun d hd => ⟨(hs.dropped d hd).1, Nat.lt_succ_of_lt (hs.dropped d hd).2⟩
  done := by
    intro d hd hdone
    obtain rfl | hd := List.mem_cons.mp hd
    · simp at hdone
    · exact hs.done d hd hdone
  barrier := hs.barrier
  fresh := hs.fresh

theorem Safe.return_ (hs : s.Safe) (hd : d ∈ s.drops) (hdone : d.done = true) :
    Safe { s with
      drops := remove Drop.number s.drops n
      dropped := ⟨d.target, d.started, s.clock⟩ :: s.dropped
      clock := s.clock + 1 } where
  distinct := hs.distinct.remove
  lookups := fun l hl => ⟨Nat.lt_succ_of_lt (hs.lookups l hl).1, (hs.lookups l hl).2⟩
  found := fun f hf => Nat.lt_succ_of_lt (hs.found f hf)
  drops := fun d hd => Nat.lt_succ_of_lt (hs.drops d (mem_remove.mp hd).1)
  dropped := by
    intro d' hd'
    obtain rfl | hd' := List.mem_cons.mp hd'
    · exact ⟨Nat.le_of_lt (hs.drops d hd), Nat.lt_succ_self s.clock⟩
    · exact ⟨(hs.dropped d' hd').1, Nat.lt_succ_of_lt (hs.dropped d' hd').2⟩
  done := fun d hd => hs.done d (mem_remove.mp hd).1
  barrier := by
    intro d' hd'
    obtain rfl | hd' := List.mem_cons.mp hd'
    · exact hs.done d hd hdone
    · exact hs.barrier d' hd'
  fresh := by
    intro f hf d' hd' hcov hret
    obtain rfl | hd' := List.mem_cons.mp hd'
    · -- it returns now, and the lookup started before
      have hlt : s.clock < f.started := hret
      have := hs.found f hf
      omega
    · exact hs.fresh f hf d' hd' hcov hret

theorem Safe.step {e : Event ι τ} (hs : s.Safe) (hcond : s.NothingOlder e)
    (h : s.step e = some s') : s'.Safe := by
  obtain ⟨m, hm, rfl⟩ := Option.map_eq_some_iff.mp h
  cases e with
  | find n id =>
    simp only [act] at hm
    split at hm
    · simp at hm
    · cases hm
      exact hs.effect {
        drops := rfl
        dropped := rfl
        keeps := fun _ => rfl
        lookups := by
          intro l hl
          obtain rfl | hl := List.mem_cons.mp hl
          · exact .inl ⟨rfl, rfl⟩
          · exact continues_self hl
        found := fun _ hf => .inl hf
        cache := fun _ _ h => held_origin h }
  | load n now =>
    obtain ⟨l, hl, hm⟩ := Option.bind_eq_some_iff.mp hm
    split at hm
    · cases hm
      exact hs.effect (effect_load (get_mem hl))
    · simp at hm
  | expire n =>
    obtain ⟨l, hl, hm⟩ := Option.bind_eq_some_iff.mp hm
    split at hm
    · cases hm
      exact hs.effect effect_expire
    · simp at hm
  | answer n a =>
    obtain ⟨l, hl, hm⟩ := Option.bind_eq_some_iff.mp hm
    split at hm
    · cases hm
      exact hs.effect (effect_move fun _ _ h => by cases h; rfl)
    · simp at hm
  | remember n now =>
    obtain ⟨l, hl, hm⟩ := Option.bind_eq_some_iff.mp hm
    split at hm
    · next hplace =>
        cases hm
        exact hs.effect (effect_remember (get_mem hl) hplace)
    · simp at hm
  | drop n target =>
    simp only [act] at hm
    split at hm
    · simp at hm
    · next hnew =>
        cases hm
        exact hs.drop (by simpa using hnew)
  | apply n =>
    obtain ⟨d, hd, hm⟩ := Option.bind_eq_some_iff.mp hm
    split at hm
    · simp at hm
    · cases hm
      exact hs.apply hd hcond
  | return_ n =>
    obtain ⟨d, hd, hm⟩ := Option.bind_eq_some_iff.mp hm
    split at hm
    · next hdone =>
        cases hm
        exact hs.return_ (get_mem hd) hdone
    · simp at hm

end Service

end Microjet.Tenant
