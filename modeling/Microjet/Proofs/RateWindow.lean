import Mathlib.Algebra.Order.Field.Basic
import Mathlib.Algebra.Order.Field.Rat
import Mathlib.Tactic.NormNum
import Microjet.Middleware.RateLimit

/-!
# How many requests a client gets through

The level of a client's bucket is a `TokenBucket.Potential`, and so the bound `burst + rps * d`
holds, as long as a sweep does not change it: the bucket it takes was full already if
`burst ≤ rps * ttl`. Otherwise the client gets two bursts, a little more than the idle time apart.
-/

namespace Microjet.Middleware

open Gin TokenBucket

variable {κ : Type} {cfg : RateLimitConfig κ} {clientIP : κ → GoString}

theorem RateLimitConfig.bucketSize_pos (cfg : RateLimitConfig κ) : 0 < cfg.bucketSize := by
  unfold bucketSize
  split
  · omega
  · next h => exact not_le.mp h

theorem RateLimitConfig.bucketSize_toNat (cfg : RateLimitConfig κ) :
    (cfg.bucketSize.toNat : ℚ) = cfg.bucketSize := by
  rw [← Int.cast_natCast, Int.toNat_of_nonneg cfg.bucketSize_pos.le]

theorem RateLimitConfig.ttl_pos (cfg : RateLimitConfig κ) : 0 < cfg.ttl := by
  unfold ttl
  split
  · norm_num
  · next h => exact not_le.mp h

namespace LimiterStore

section Sweep

variable {s : LimiterStore} {key : GoString} {now : ℚ} {cl : ClientLimiter}

@[simp] theorem sweep_rps : (s.sweep now).rps = s.rps := by
  unfold sweep
  split <;> rfl

@[simp] theorem sweep_burst : (s.sweep now).burst = s.burst := by
  unfold sweep
  split <;> rfl

@[simp] theorem sweep_ttl : (s.sweep now).ttl = s.ttl := by
  unfold sweep
  split <;> rfl

theorem limiters_of_sweep (h : (s.sweep now).limiters key = some cl) :
    s.limiters key = some cl := by
  unfold sweep at h
  split at h
  · exact (Option.filter_eq_some_iff.mp h).1
  · exact h

theorem idle_of_sweep (hcl : s.limiters key = some cl)
    (h : (s.sweep now).limiters key = none) : s.ttl < now - cl.lastSeen := by
  unfold sweep at h
  split at h
  · have hfilter := Option.filter_eq_none_iff.mp h cl hcl
    exact not_le.mp fun hle => hfilter (decide_eq_true hle)
  · rw [hcl] at h
    cases h

theorem swept (hcleanup : s.ttl < now - s.lastCleanup)
    (hidle : ∀ cl, s.limiters key = some cl → s.ttl < now - cl.lastSeen) :
    (s.sweep now).limiters key = none := by
  rw [sweep, if_pos hcleanup]
  refine Option.filter_eq_none_iff.mpr fun cl hcl hkeep => ?_
  exact absurd (of_decide_eq_true hkeep) (not_le.mpr (hidle cl hcl))

end Sweep

/-- What a client has at a time. -/
def held (s : LimiterStore) (client : GoString) (t : ℚ) : ℚ :=
  (s.limiterOf client t).level s.rps s.burst t

/-- What holds of the store at a time. -/
structure Sound (cfg : RateLimitConfig κ) (s : LimiterStore) (t : ℚ) : Prop where
  rps : s.rps = cfg.rps
  burst : s.burst = cfg.bucketSize
  ttl : s.ttl = cfg.ttl
  tokens : ∀ key cl, s.limiters key = some cl → 0 ≤ cl.limiter.tokens
  seen : ∀ key cl, s.limiters key = some cl →
    cl.limiter.last ≤ cl.lastSeen ∧ cl.lastSeen ≤ t

section Held

variable {s : LimiterStore} {client : GoString} {t now : ℚ} {cl : ClientLimiter}

theorem held_some (h : s.limiters client = some cl) :
    s.held client t = cl.limiter.level s.rps s.burst t := by
  rw [held, limiterOf, h]

theorem held_none (hrps : 0 ≤ s.rps) (h : s.limiters client = none) :
    s.held client t = s.burst := by
  rw [held, limiterOf, h]
  exact level_full hrps (le_refl t)

theorem held_le_burst : s.held client t ≤ s.burst := level_le_cap

theorem sweep_held (hrps : 0 ≤ s.rps) :
    (s.sweep now).held client now = s.held client now ∨
      (s.sweep now).held client now = s.burst ∧
        ∃ cl, s.limiters client = some cl ∧ s.ttl < now - cl.lastSeen := by
  cases hleft : (s.sweep now).limiters client with
  | some cl =>
    rw [held_some hleft, held_some (limiters_of_sweep hleft), sweep_rps, sweep_burst]
    exact .inl rfl
  | none =>
    rw [held_none (by rwa [sweep_rps]) hleft, sweep_burst]
    cases hcl : s.limiters client with
    | none => exact .inl (held_none hrps hcl).symm
    | some cl => exact .inr ⟨rfl, cl, rfl, idle_of_sweep hcl hleft⟩

theorem held_le_sweep (hrps : 0 ≤ s.rps) : s.held client now ≤ (s.sweep now).held client now := by
  rcases sweep_held hrps with h | ⟨h, -⟩
  · exact le_of_eq h.symm
  · rw [h]
    exact held_le_burst

end Held

end LimiterStore

open LimiterStore

namespace LimiterStore.Sound

variable {s : LimiterStore} {client : GoString} {t t' now : ℚ}

theorem start (t : ℚ) : Sound cfg (newLimiterStore cfg t) t :=
  ⟨rfl, rfl, rfl, nofun, nofun⟩

theorem wait (h : Sound cfg s t) (ht : t ≤ t') : Sound cfg s t' :=
  ⟨h.rps, h.burst, h.ttl, h.tokens, fun key cl hcl =>
    ⟨(h.seen key cl hcl).1, (h.seen key cl hcl).2.trans ht⟩⟩

theorem sweep (h : Sound cfg s now) : Sound cfg (s.sweep now) now where
  rps := sweep_rps.trans h.rps
  burst := sweep_burst.trans h.burst
  ttl := sweep_ttl.trans h.ttl
  tokens := fun key cl hcl => h.tokens key cl (limiters_of_sweep hcl)
  seen := fun key cl hcl => h.seen key cl (limiters_of_sweep hcl)

theorem limiterOf (h : Sound cfg s now) (client : GoString) :
    0 ≤ (s.limiterOf client now).tokens ∧ (s.limiterOf client now).last ≤ now := by
  unfold LimiterStore.limiterOf
  split
  · next cl hcl =>
      obtain ⟨hlast, hseen⟩ := h.seen client cl hcl
      exact ⟨h.tokens client cl hcl, hlast.trans hseen⟩
  · refine ⟨?_, le_refl now⟩
    have hpos := cfg.bucketSize_pos
    rw [← h.burst] at hpos
    exact Int.cast_nonneg hpos.le

theorem sweep_held_eq (h : Sound cfg s now) (hrps : 0 < cfg.rps)
    (hrefill : (cfg.bucketSize : ℚ) ≤ cfg.rps * cfg.ttl) :
    (s.sweep now).held client now = s.held client now := by
  have hrps' : 0 < s.rps := h.rps ▸ hrps
  rcases sweep_held hrps'.le with heq | ⟨heq, cl, hcl, hidle⟩
  · exact heq
  · rw [heq, held_some hcl]
    refine (level_idle (h.tokens client cl hcl) ?_).symm
    have hlast := (h.seen client cl hcl).1
    calc (s.burst : ℚ) ≤ s.rps * s.ttl := by rwa [h.burst, h.rps, h.ttl]
      _ ≤ s.rps * (now - cl.limiter.last) :=
          mul_le_mul_of_nonneg_left (by linarith) hrps'.le

end LimiterStore.Sound

section Request

variable {s : LimiterStore} {r : Arrival κ} {client : GoString}

def taken (clientIP : κ → GoString) (cfg : RateLimitConfig κ) (s : LimiterStore)
    (r : Arrival κ) : Bool × Limiter :=
  ((s.sweep r.now).limiterOf (cfg.key clientIP r.ctx) r.now).take s.rps s.burst r.now

theorem rateLimit_admits :
    (rateLimit clientIP cfg s r).1.admits = (taken clientIP cfg s r).1 := by
  simp only [rateLimit, LimiterStore.get, sweep_rps, sweep_burst]
  rw [← taken]
  cases (taken clientIP cfg s r).1 <;> rfl

@[simp] theorem rateLimit_rps : (rateLimit clientIP cfg s r).2.rps = s.rps := sweep_rps

@[simp] theorem rateLimit_burst : (rateLimit clientIP cfg s r).2.burst = s.burst := sweep_burst

theorem rateLimit_lastCleanup :
    (rateLimit clientIP cfg s r).2.lastCleanup = (s.sweep r.now).lastCleanup := rfl

theorem rateLimit_limiters :
    (rateLimit clientIP cfg s r).2.limiters =
      Function.update (s.sweep r.now).limiters (cfg.key clientIP r.ctx)
        (some ⟨(taken clientIP cfg s r).2, r.now⟩) := by
  simp only [rateLimit, LimiterStore.get, sweep_rps, sweep_burst, setLimiter,
    Function.update_self, Option.map_some, Function.update_idem]
  rfl

theorem limiters_self :
    (rateLimit clientIP cfg s r).2.limiters (cfg.key clientIP r.ctx) =
      some ⟨(taken clientIP cfg s r).2, r.now⟩ := by
  rw [rateLimit_limiters, Function.update_self]

theorem limiters_other (h : cfg.key clientIP r.ctx ≠ client) :
    (rateLimit clientIP cfg s r).2.limiters client = (s.sweep r.now).limiters client := by
  rw [rateLimit_limiters, Function.update_of_ne h.symm]

theorem held_self (clientIP : κ → GoString) (cfg : RateLimitConfig κ) (s : LimiterStore)
    (r : Arrival κ) :
    (rateLimit clientIP cfg s r).2.held (cfg.key clientIP r.ctx) r.now +
        ((rateLimit clientIP cfg s r).1.admits.toNat : ℚ) =
      (s.sweep r.now).held (cfg.key clientIP r.ctx) r.now := by
  have hpaid : (taken clientIP cfg s r).2.level s.rps s.burst r.now +
      (if (taken clientIP cfg s r).1 then 1 else 0) =
        ((s.sweep r.now).limiterOf (cfg.key clientIP r.ctx) r.now).level s.rps s.burst r.now :=
    take_level
  rw [rateLimit_admits, held_some limiters_self, held, rateLimit_rps, rateLimit_burst, sweep_rps,
    sweep_burst, ← hpaid]
  cases (taken clientIP cfg s r).1 <;> simp

theorem held_other (h : cfg.key clientIP r.ctx ≠ client) :
    (rateLimit clientIP cfg s r).2.held client r.now = (s.sweep r.now).held client r.now := by
  rw [held, held, limiterOf, limiterOf, limiters_other h]
  rfl

theorem LimiterStore.Sound.rateLimit (h : Sound cfg s r.now) :
    Sound cfg (rateLimit clientIP cfg s r).2 r.now := by
  have hswept := h.sweep
  have hof := hswept.limiterOf (cfg.key clientIP r.ctx)
  have hentry : ∀ key cl, (Middleware.rateLimit clientIP cfg s r).2.limiters key = some cl →
      0 ≤ cl.limiter.tokens ∧ cl.limiter.last ≤ cl.lastSeen ∧ cl.lastSeen ≤ r.now := by
    intro key cl hcl
    by_cases hkey : cfg.key clientIP r.ctx = key
    · subst hkey
      rw [limiters_self] at hcl
      cases hcl
      exact ⟨take_nonneg hof.1, take_last hof.2, le_refl _⟩
    · rw [limiters_other hkey] at hcl
      exact ⟨hswept.tokens key cl hcl, hswept.seen key cl hcl⟩
  exact ⟨hswept.rps, hswept.burst, hswept.ttl, fun key cl hcl => (hentry key cl hcl).1,
    fun key cl hcl => (hentry key cl hcl).2⟩

end Request

/-! ### Buckets that refill within the idle time -/

theorem held_potential (clientIP : κ → GoString) (hrps : 0 < cfg.rps)
    (hrefill : (cfg.bucketSize : ℚ) ≤ cfg.rps * cfg.ttl) (client : GoString) :
    Potential (rateLimit clientIP cfg) Arrival.now
      (fun r verdict => decide (cfg.key clientIP r.ctx = client) && verdict.admits)
      cfg.rps cfg.bucketSize (Sound cfg) fun s t => s.held client t where
  nonneg := by
    intro s t hs
    have hrps' : 0 ≤ s.rps := hs.rps ▸ hrps.le
    have hburst : (0 : ℚ) ≤ s.burst := Int.cast_nonneg (hs.burst ▸ cfg.bucketSize_pos.le)
    exact level_nonneg hrps' hburst (hs.limiterOf _).1 (hs.limiterOf _).2
  le_cap := fun s t hs => hs.burst ▸ held_le_burst
  grows := by
    intro s t t' hs ht
    have hrps' : 0 ≤ s.rps := hs.rps ▸ hrps.le
    rw [← hs.rps]
    cases hcl : s.limiters client with
    | some cl =>
      rw [held_some hcl, held_some hcl]
      exact level_le_add hrps' ht
    | none =>
      rw [held_none hrps' hcl, held_none hrps' hcl]
      exact le_add_of_nonneg_right (mul_nonneg hrps' (sub_nonneg.mpr ht))
  wait := fun s t t' hs ht => hs.wait ht
  keeps := fun s r hs => hs.rateLimit
  pays := by
    intro s r hs
    rw [← hs.sweep_held_eq hrps hrefill]
    by_cases hkey : cfg.key clientIP r.ctx = client
    · subst hkey
      rw [decide_eq_true rfl, Bool.true_and]
      exact le_of_eq (held_self _ _ _ _)
    · rw [decide_eq_false hkey, Bool.false_and, held_other hkey]
      simp

/-! ### Buckets that do not -/

section Bursts

variable {s : LimiterStore} {r : Arrival κ}

theorem held_sweep_self (hs : Sound cfg s r.now) (hrps : 0 < cfg.rps) :
    ((rateLimit clientIP cfg s r).2.sweep r.now).held (cfg.key clientIP r.ctx) r.now =
      (rateLimit clientIP cfg s r).2.held (cfg.key clientIP r.ctx) r.now := by
  have hsound : Sound cfg (rateLimit clientIP cfg s r).2 r.now := hs.rateLimit
  rcases sweep_held (hsound.rps ▸ hrps.le) with heq | ⟨-, cl, hcl, hidle⟩
  · exact heq
  · rw [limiters_self] at hcl
    cases hcl
    rw [hsound.ttl, sub_self] at hidle
    exact absurd cfg.ttl_pos (not_lt.mpr hidle.le)

theorem admits_of_held (h : 1 ≤ (s.sweep r.now).held (cfg.key clientIP r.ctx) r.now) :
    (rateLimit clientIP cfg s r).1.admits = true := by
  rw [held, sweep_rps, sweep_burst] at h
  rw [rateLimit_admits, taken, Bucket.take, if_pos h]

theorem burst_admitted {a e : ℚ} (ha : a ≤ r.now) (he : r.now ≤ e) (hrps : 0 < cfg.rps) (n : Nat)
    (hs : Sound cfg s r.now)
    (hn : (n : ℚ) ≤ (s.sweep r.now).held (cfg.key clientIP r.ctx) r.now) :
    countIn (rateLimit clientIP cfg) Arrival.now
      (fun r' verdict =>
        decide (cfg.key clientIP r'.ctx = cfg.key clientIP r.ctx) && verdict.admits)
      a e s (List.replicate n r) = n := by
  induction n generalizing s with
  | zero => rfl
  | succ n ih =>
    rw [Nat.cast_succ] at hn
    have hadmits : (rateLimit clientIP cfg s r).1.admits = true :=
      admits_of_held ((le_add_of_nonneg_left n.cast_nonneg).trans hn)
    have hpaid := held_self clientIP cfg s r
    rw [hadmits, Bool.toNat_true, Nat.cast_one] at hpaid
    have hrest := ih hs.rateLimit (by rw [held_sweep_self hs hrps]; linarith)
    rw [List.replicate_succ, countIn_cons, hrest, hadmits, decide_eq_true rfl,
      decide_eq_true ha, decide_eq_true he]
    rfl

structure Fresh (cfg : RateLimitConfig κ) (key : GoString) (start : ℚ) (s : LimiterStore) :
    Prop where
  sound : Sound cfg s start
  cleanup : s.lastCleanup = start
  seen : ∀ cl, s.limiters key = some cl → cl.lastSeen = start

theorem fresh_start (cfg : RateLimitConfig κ) (start : ℚ) (key : GoString) :
    Fresh cfg key start (newLimiterStore cfg start) :=
  ⟨Sound.start start, rfl, nofun⟩

theorem Fresh.rateLimit (h : Fresh cfg (cfg.key clientIP r.ctx) r.now s) :
    Fresh cfg (cfg.key clientIP r.ctx) r.now (rateLimit clientIP cfg s r).2 := by
  refine ⟨h.sound.rateLimit, ?_, fun cl hcl => ?_⟩
  · have hnone : ¬ s.ttl < r.now - s.lastCleanup := by
      rw [h.cleanup, sub_self, h.sound.ttl]
      exact not_lt.mpr cfg.ttl_pos.le
    rw [rateLimit_lastCleanup, LimiterStore.sweep, if_neg hnone, h.cleanup]
  · rw [limiters_self] at hcl
    cases hcl
    rfl

theorem Fresh.full {key : GoString} {start now : ℚ} (h : Fresh cfg key start s)
    (hrps : 0 < cfg.rps) (hnow : start + cfg.ttl < now) :
    (s.sweep now).held key now = cfg.bucketSize := by
  have hidle : s.ttl < now - start := by
    rw [h.sound.ttl]
    linarith
  have hnone : (s.sweep now).limiters key = none :=
    swept (h.cleanup ▸ hidle) fun cl hcl => h.seen cl hcl ▸ hidle
  rw [held_none (by rw [sweep_rps, h.sound.rps]; exact hrps.le) hnone, sweep_burst, h.sound.burst]

end Bursts

/-- Two bursts of one client, the second more than the idle time after the first, all get
through. -/
theorem two_bursts (clientIP : κ → GoString) (c : κ) (hrps : 0 < cfg.rps) {d : ℚ}
    (hd : cfg.ttl < d) :
    admitted clientIP cfg 0 (cfg.key clientIP c) 0 d
      (List.replicate cfg.bucketSize.toNat ⟨0, c⟩ ++
        List.replicate cfg.bucketSize.toNat ⟨d, c⟩) =
      cfg.bucketSize.toNat + cfg.bucketSize.toNat := by
  have hd0 : 0 ≤ d := cfg.ttl_pos.le.trans hd.le
  have hstart := fresh_start cfg 0 (cfg.key clientIP c)
  have hmid : Fresh cfg (cfg.key clientIP c) 0 (Machine.final (rateLimit clientIP cfg)
      (newLimiterStore cfg 0) (List.replicate cfg.bucketSize.toNat ⟨0, c⟩)) := by
    refine Machine.final_inv (fun s r hr hs => ?_) hstart
    rw [List.eq_of_mem_replicate hr]
    exact Fresh.rateLimit (r := ⟨0, c⟩) hs
  rw [admitted, countIn_append, zero_add]
  congr 1
  · refine burst_admitted (r := ⟨0, c⟩) (le_refl _) hd0 hrps _ hstart.sound ?_
    rw [cfg.bucketSize_toNat]
    refine le_trans (le_of_eq ?_) (held_le_sweep hrps.le)
    exact (held_none (s := newLimiterStore cfg 0) hrps.le rfl).symm
  · refine burst_admitted (r := ⟨d, c⟩) hd0 (le_refl _) hrps _ (hmid.sound.wait hd0) ?_
    rw [cfg.bucketSize_toNat]
    exact le_of_eq (hmid.full hrps (by rwa [zero_add])).symm

/-- A client gets at most `burst + rps * d` requests through in a time `d`, however they come,
exactly if a bucket refills within the idle time. -/
theorem admitted_le_iff (clientIP : κ → GoString) (cfg : RateLimitConfig κ) (c : κ)
    (hrps : 0 < cfg.rps) :
    (∀ start requests, Timed Arrival.now start requests → ∀ client a d, 0 ≤ d →
      (admitted clientIP cfg start client a d requests : ℚ) ≤ cfg.bucketSize + cfg.rps * d) ↔
    (cfg.bucketSize : ℚ) ≤ cfg.rps * cfg.ttl := by
  constructor
  · intro hbound
    by_contra hslow
    obtain ⟨d, httl, hd⟩ : ∃ d, cfg.ttl < d ∧ cfg.rps * d < cfg.bucketSize := by
      obtain ⟨d, httl, hd⟩ := exists_between ((lt_div_iff₀' hrps).mpr (not_le.mp hslow))
      exact ⟨d, httl, (lt_div_iff₀' hrps).mp hd⟩
    have hd0 : 0 ≤ d := cfg.ttl_pos.le.trans httl.le
    have htimed : Timed Arrival.now 0 (List.replicate cfg.bucketSize.toNat (⟨0, c⟩ : Arrival κ) ++
        List.replicate cfg.bucketSize.toNat ⟨d, c⟩) := by
      refine Timed.replicate_append (x := Arrival.mk 0 c) (le_refl _) ?_ _
      rw [← List.append_nil (List.replicate _ (⟨d, c⟩ : Arrival κ))]
      exact Timed.replicate_append hd0 (show Timed Arrival.now d [] from trivial) _
    have hle := hbound 0 _ htimed (cfg.key clientIP c) 0 d hd0
    rw [two_bursts clientIP c hrps httl, Nat.cast_add] at hle
    rw [cfg.bucketSize_toNat] at hle
    linarith
  · intro hrefill start requests htimed client a d hd
    exact (held_potential clientIP hrps hrefill client).window_bound hrps.le
      (Int.cast_nonneg cfg.bucketSize_pos.le) hd (Sound.start start) htimed

theorem ten_per_second :
    (0 : ℚ) < 10 ∧
      ∀ start requests, Timed Arrival.now start requests → ∀ client a d, 0 ≤ d →
        (admitted id { rps := 10 } start client a d requests : ℚ) ≤ 10 + 10 * d := by
  have hsize : (({ rps := 10 } : RateLimitConfig GoString).bucketSize : ℚ) = 10 := rfl
  have hbound := (admitted_le_iff id { rps := 10 } [] (by norm_num)).mpr
    (by rw [hsize]; decide +kernel)
  rw [hsize] at hbound
  exact ⟨by norm_num, hbound⟩

/-- One request in a thousand seconds, a burst of one and ten idle minutes: two get through
within 601 seconds. -/
theorem slow_rate_exceeded :
    ∃ requests : List (Arrival GoString), Timed Arrival.now 0 requests ∧
      ¬ (admitted id { rps := 1 / 1000, burst := 1, idleTTL := 600 } 0 (bytes "10.0.0.1") 0 601
        requests : ℚ) ≤ 1 + 1 / 1000 * 601 := by
  refine ⟨[⟨0, bytes "10.0.0.1"⟩, ⟨601, bytes "10.0.0.1"⟩], ⟨le_refl _, by decide, trivial⟩, ?_⟩
  have htwo : admitted id { rps := 1 / 1000, burst := 1, idleTTL := 600 } 0 (bytes "10.0.0.1") 0
      601 [⟨0, bytes "10.0.0.1"⟩, ⟨601, bytes "10.0.0.1"⟩] = 2 := by decide +kernel
  rw [htwo]
  norm_num

theorem held_reserve (clientIP : κ → GoString) (hrps : 0 < cfg.rps) (client : GoString) :
    Reserve (rateLimit clientIP cfg) Arrival.now
      (fun r verdict => decide (cfg.key clientIP r.ctx = client) && verdict.admits)
      cfg.rps cfg.bucketSize (Sound cfg) fun s t => s.held client t where
  grows := by
    intro s t t' hs _
    rw [← hs.rps, ← hs.burst]
    cases hcl : s.limiters client with
    | some cl =>
      rw [held_some hcl, held_some hcl]
      exact min_level_le
    | none =>
      rw [held_none (hs.rps ▸ hrps.le) hcl]
      exact (min_le_left _ _).trans (held_none (hs.rps ▸ hrps.le) hcl).ge
  wait := fun s t t' hs ht => hs.wait ht
  keeps := fun s r hs => hs.rateLimit
  spends := by
    intro s r hs
    refine (held_le_sweep (hs.rps ▸ hrps.le)).trans (le_of_eq ?_)
    by_cases hkey : cfg.key clientIP r.ctx = client
    · subst hkey
      rw [decide_eq_true rfl, Bool.true_and]
      exact (held_self _ _ _ _).symm
    · rw [decide_eq_false hkey, Bool.false_and, held_other hkey]
      simp

theorem final_rps (clientIP : κ → GoString) (s : LimiterStore) (requests : List (Arrival κ)) :
    (Machine.final (rateLimit clientIP cfg) s requests).rps = s.rps := by
  induction requests generalizing s with
  | nil => rfl
  | cons q requests ih => exact (ih _).trans rateLimit_rps

/-- A request is rejected only if its client has used up the burst and the rate of a whole window
that ends with it. -/
theorem rejected_only_over_budget (clientIP : κ → GoString) (hrps : 0 < cfg.rps) {start : ℚ}
    {requests : List (Arrival κ)} {r : Arrival κ} (hstart : start ≤ r.now)
    (htimed : Timed Arrival.now start requests) (hlast : ∀ q ∈ requests, q.now ≤ r.now)
    (hrejected : (rateLimit clientIP cfg (Machine.final (rateLimit clientIP cfg)
      (newLimiterStore cfg start) requests) r).1.admits = false) :
    ∃ a ≤ r.now, cfg.bucketSize + cfg.rps * (r.now - a) <
      admitted clientIP cfg start (cfg.key clientIP r.ctx) a (r.now - a) requests + 1 := by
  have hsound : Sound cfg (newLimiterStore cfg start) start := .start start
  have hfull : (cfg.bucketSize : ℚ) ≤
      (newLimiterStore cfg start).held (cfg.key clientIP r.ctx) start :=
    (held_none hrps.le rfl).ge
  obtain ⟨a, ha, hle⟩ := (held_reserve clientIP hrps (cfg.key clientIP r.ctx)).window hsound hfull
    hstart htimed hlast
  set s := Machine.final (rateLimit clientIP cfg) (newLimiterStore cfg start) requests
  have hrps' : 0 ≤ s.rps := (final_rps clientIP _ requests).symm ▸ hrps.le
  have hheld : s.held (cfg.key clientIP r.ctx) r.now ≤
      (s.sweep r.now).held (cfg.key clientIP r.ctx) r.now := held_le_sweep hrps'
  have hshort := mt admits_of_held (by rw [hrejected]; exact Bool.false_ne_true)
  refine ⟨a, ha, ?_⟩
  rw [admitted, add_sub_cancel]
  linarith

/-- With one request per second and a burst of one, the second of two requests at a time. -/
theorem second_at_once_rejected :
    ∃ a : ℚ, a ≤ 5 ∧ 1 + 1 * (5 - a) <
      admitted id { rps := 1 } 0 (bytes "10.0.0.1") a (5 - a) [⟨5, bytes "10.0.0.1"⟩] + 1 :=
  rejected_only_over_budget id (show 0 < ({ rps := 1 } : RateLimitConfig GoString).rps from one_pos)
    (r := ⟨5, bytes "10.0.0.1"⟩) (by decide) ⟨by decide, trivial⟩ (by decide) (by decide +kernel)

end Microjet.Middleware
