import Microjet.Proofs.CacheInvalidate
import Microjet.Tenant.Lookup
import Microjet.Lib.Machine

/-!
# What a lookup returns

Every entry of the cache goes back to an answer of the wrapped store (`Backed`). `FindTenant`
returns the answer of such an entry, or asks. How long an answer is held is said by the
settings the cache was made with (`heldFor`), which no call changes.
-/

namespace Microjet.Tenant

open Machine

namespace CachedStore

variable {ι τ : Type} [DecidableEq ι] {c : CachedStore ι τ} {id : ι} {now : Int}

variable {entry : CacheEntry τ}

theorem findTenant_hit {a : Answer τ} (h : c.hit id now = some entry) :
    c.cache id = some entry ∧ now < entry.expiresAt ∧
      c.findTenant id a now = (⟨entry.tenant, entry.err⟩, c) := by
  obtain ⟨hcache, hlive⟩ := Option.filter_eq_some_iff.mp h
  have hlive : now < entry.expiresAt := of_decide_eq_true hlive
  refine ⟨hcache, hlive, ?_⟩
  rw [findTenant, hcache]
  exact if_pos hlive

theorem findTenant_miss {a : Answer τ} (h : c.hit id now = none) :
    ∃ c', (c' = c ∨ c' = c.invalidate id) ∧ c.findTenant id a now = c'.settle id a now := by
  rw [findTenant]
  cases hcache : c.cache id with
  | none => exact ⟨c, .inl rfl, rfl⟩
  | some entry =>
    have hdead : ¬now < entry.expiresAt := by
      rw [hit, hcache] at h
      simpa using h
    exact ⟨c.invalidate id, .inr rfl, if_neg hdead⟩

variable {e : CacheEntry τ}

theorem invalidate_cache {id' : ι}
    (h : (c.invalidate id).cache id' = some e) : id' ≠ id ∧ c.cache id' = some e := by
  have h : Function.update c.cache id none id' = some e := h
  by_cases hid : id' = id
  · rw [hid, Function.update_self] at h
    cases h
  · rw [Function.update_of_ne hid] at h
    exact ⟨hid, h⟩

theorem settle_answer (r : Reply τ) : (c.settle id r.answer now).1 = r.answer := by
  cases r with
  | tenant t => rfl
  | absent => rfl
  | failed err =>
    show (if err.isNotFoundError then _ else _ : Answer τ × CachedStore ι τ).1 = _
    split <;> rfl

theorem remember_cache {ttl : Int} {id' : ι}
    (h : (c.remember id entry ttl now).cache id' = some e) :
    c.cache id' = some e ∨
      id' = id ∧ 0 < ttl ∧ e = { entry with expiresAt := now + ttl } := by
  rw [remember] at h
  split at h
  · exact .inl h
  · next hpos =>
      by_cases hid : id' = id
      · subst hid
        refine .inr ⟨rfl, Int.not_le.mp hpos, ?_⟩
        have h : Function.update c.cache id' (some _) id' = some e := h
        rw [Function.update_self] at h
        exact (Option.some.inj h).symm
      · have h : Function.update c.cache id (some _) id' = some e := h
        rw [Function.update_of_ne hid] at h
        exact .inl h

theorem settle_cache {r : Reply τ} {id' : ι} (h : (c.settle id r.answer now).2.cache id' = some e) :
    c.cache id' = some e ∨
      id' = id ∧ ∃ ttl, c.ttlOf r.answer = some ttl ∧ 0 < ttl ∧
        (⟨e.tenant, e.err⟩ : Answer τ) = r.answer ∧ e.expiresAt = now + ttl := by
  cases r with
  | tenant t =>
    obtain hold | ⟨hid, hpos, rfl⟩ := remember_cache h
    · exact .inl hold
    · exact .inr ⟨hid, _, rfl, hpos, rfl, rfl⟩
  | absent =>
    obtain hold | ⟨hid, hpos, rfl⟩ := remember_cache h
    · exact .inl hold
    · exact .inr ⟨hid, _, rfl, hpos, rfl, rfl⟩
  | failed err =>
    by_cases hnf : err.isNotFoundError = true
    · have hset : (c.settle id (Reply.failed err).answer now).2 =
          c.remember id { err := some err } c.absentTTL now := by
        simp [settle, Reply.answer, hnf]
      rw [hset] at h
      obtain hold | ⟨hid, hpos, rfl⟩ := remember_cache h
      · exact .inl hold
      · exact .inr ⟨hid, _, if_pos hnf, hpos, rfl, rfl⟩
    · have hset : (c.settle id (Reply.failed err).answer now).2 = c := by
        simp [settle, Reply.answer, hnf]
      rw [hset] at h
      exact .inl h

theorem remember_settings (entry : CacheEntry τ) (ttl : Int) :
    (c.remember id entry ttl now).ttlOf = c.ttlOf := by
  rw [remember]
  split <;> rfl

theorem settle_settings (a : Answer τ) : (c.settle id a now).2.ttlOf = c.ttlOf := by
  rw [settle]
  split
  · split
    · exact remember_settings _ _
    · rfl
  · split
    · exact remember_settings _ _
    · exact remember_settings _ _

end CachedStore

namespace History

variable {ι τ : Type} [DecidableEq ι] {s : History ι τ} {id : ι}

/-- The store gave the answer, not longer ago than it is held, and nothing was dropped since. -/
def Remembers (c : CachedStore ι τ) (log : List (Note ι τ)) (id : ι) (a : Answer τ)
    (expiresAt : Int) : Prop :=
  ∃ newer time older ttl, log = newer ++ .asked id a time :: older ∧
    (∀ n ∈ newer, n.drops id = false) ∧ c.ttlOf a = some ttl ∧ 0 < ttl ∧ expiresAt = time + ttl

/-- The store gave it, it is held as long as such answers are, and nothing dropped it. -/
def Backed (s : History ι τ) : Prop :=
  ∀ id e, s.store.cache id = some e → Remembers s.store s.log id ⟨e.tenant, e.err⟩ e.expiresAt

variable {c : CachedStore ι τ} {log : List (Note ι τ)}

theorem Remembers.note {a : Answer τ}
    {expiresAt : Int} {n : Note ι τ} (h : Remembers c log id a expiresAt)
    (hn : n.drops id = false) : Remembers c (n :: log) id a expiresAt := by
  obtain ⟨newer, time, older, ttl, rfl, hnewer, hrest⟩ := h
  refine ⟨n :: newer, time, older, ttl, rfl, fun m hm => ?_, hrest⟩
  rcases List.mem_cons.mp hm with rfl | hm
  · exact hn
  · exact hnewer m hm

theorem Remembers.settings {c c' : CachedStore ι τ} {a : Answer τ}
    {expiresAt : Int} (h : Remembers c log id a expiresAt) (hc : c'.ttlOf = c.ttlOf) :
    Remembers c' log id a expiresAt := by
  obtain ⟨newer, time, older, ttl, hlog, hnewer, httl, hrest⟩ := h
  exact ⟨newer, time, older, ttl, hlog, hnewer, by rw [hc]; exact httl, hrest⟩

theorem Backed.ask (hs : s.Backed) (hc : c = s.store ∨ c = s.store.invalidate id) :
    Backed { s with
      store := (c.settle id (s.wrapped id).answer s.now).2
      log := .asked id (s.wrapped id).answer s.now :: s.log } := by
  have httl : c.ttlOf = s.store.ttlOf := by rcases hc with rfl | rfl <;> rfl
  have hold : ∀ id' e, c.cache id' = some e → s.store.cache id' = some e := by
    rcases hc with rfl | rfl
    · exact fun _ _ h => h
    · exact fun _ _ h => (CachedStore.invalidate_cache h).2
  intro id' e he
  have hset : (c.settle id (s.wrapped id).answer s.now).2.ttlOf = c.ttlOf :=
    CachedStore.settle_settings _
  rcases CachedStore.settle_cache he with hin | ⟨rfl, ttl, hkind, hpos, hanswer, hexp⟩
  · exact ((hs id' e (hold id' e hin)).note rfl).settings (hset.trans httl)
  · refine ⟨[], s.now, s.log, ttl, ?_, nofun, ?_, hpos, hexp⟩
    · rw [hanswer]
      rfl
    · rw [hset, hanswer]
      exact hkind

theorem Backed.step (hs : s.Backed) (op : Op ι τ) : (s.step op).2.Backed := by
  cases op with
  | findTenant id =>
    show Backed { s with
      store := (s.store.findTenant id (s.wrapped id).answer s.now).2
      log := if s.asks id then .asked id (s.wrapped id).answer s.now :: s.log else s.log }
    rw [asks]
    cases hhit : s.store.hit id s.now with
    | some entry =>
      rw [(CachedStore.findTenant_hit hhit).2.2]
      exact hs
    | none =>
      obtain ⟨c, hc, heq⟩ := CachedStore.findTenant_miss (a := (s.wrapped id).answer) hhit
      rw [heq]
      exact hs.ask hc
  | invalidate id =>
    intro id' e he
    obtain ⟨hid, hold⟩ := CachedStore.invalidate_cache he
    have hkeeps : (Note.dropped (some id) : Note ι τ).drops id' = false :=
      decide_eq_false fun h => hid h.symm
    exact ((hs id' e hold).note hkeeps).settings rfl
  | clear => exact fun id' e he => nomatch he
  | advance d => exact hs
  | change wrapped => exact hs

/-- The wrapped store is asked in this call, and `a` is what it says. -/
def AskedNow (s s' : History ι τ) (id : ι) (a : Answer τ) : Prop :=
  a = (s.wrapped id).answer ∧ s'.log = .asked id a s.now :: s.log

/-- The store gave it, less than the time for it ago and after the last drop, and is not asked. -/
def AskedBefore (held : Answer τ → Option Int) (s s' : History ι τ) (id : ι) (a : Answer τ) :
    Prop :=
  s'.log = s.log ∧ ∃ newer time older ttl, s.log = newer ++ .asked id a time :: older ∧
    (∀ n ∈ newer, n.drops id = false) ∧ held a = some ttl ∧ s.now - time < ttl

/-- What a `FindTenant` from `s` to `s'` may return, when answers are held for `held`. -/
structure Answered (held : Answer τ → Option Int) (s s' : History ι τ) (id : ι) (a : Answer τ) :
    Prop where
  origin : AskedNow s s' id a ∨ AskedBefore held s s' id a
  failure : ∀ err, a.err = some err → err.isNotFoundError = false → AskedNow s s' id a
  unheld : ∀ ttl, held a = some ttl → ttl ≤ 0 → AskedNow s s' id a

theorem Backed.answered (hs : s.Backed) (id : ι) :
    ∃ a, (s.step (.findTenant id)).1 = some a ∧
      Answered s.store.ttlOf s (s.step (.findTenant id)).2 id a := by
  refine ⟨(s.store.findTenant id (s.wrapped id).answer s.now).1, rfl, ?_⟩
  cases hhit : s.store.hit id s.now with
  | none =>
    obtain ⟨c, hc, heq⟩ := CachedStore.findTenant_miss (a := (s.wrapped id).answer) hhit
    have hnow : AskedNow s (s.step (.findTenant id)).2 id (s.wrapped id).answer :=
      ⟨rfl, by
        show (if s.asks id then _ else _) = _
        rw [asks, hhit]
        rfl⟩
    rw [heq, CachedStore.settle_answer]
    exact ⟨.inl hnow, fun _ _ _ => hnow, fun _ _ _ => hnow⟩
  | some entry =>
    obtain ⟨hcache, hlive, heq⟩ :=
      CachedStore.findTenant_hit (a := (s.wrapped id).answer) hhit
    obtain ⟨newer, time, older, ttl, hlog, hnewer, httl, hpos, hexp⟩ := hs id entry hcache
    rw [heq]
    refine ⟨.inr ⟨?_, newer, time, older, ttl, hlog, hnewer, httl, ?_⟩, fun err herr hnf => ?_,
      fun ttl' httl' hle => ?_⟩
    · show (if s.asks id then _ else _) = _
      rw [asks, hhit]
      rfl
    · show s.now - time < ttl
      omega
    · -- an answer with such an error is of no kind that is held
      have hnone : s.store.ttlOf ⟨entry.tenant, entry.err⟩ = none := by
        simp only [CachedStore.ttlOf]
        simp only at herr
        rw [herr]
        simp [hnf]
      cases hnone.symm.trans httl
    · cases Option.some.inj (httl'.symm.trans httl)
      omega

end History

end Microjet.Tenant
