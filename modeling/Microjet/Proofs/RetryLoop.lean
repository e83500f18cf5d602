import Microjet.Httpx.Retry

/-!
# The retry loop and its waits

The loop of `attempt` leaves off at the first attempt that has a reason to be the last
(`Exchange.Stops`). The wait before an attempt is the one expected exactly if the shift has not
wrapped around to a small number, and if the policy has not given up doubling before the cap was
reached (`Doubles`).
-/

namespace Microjet.Httpx

open Errorx

/-- The attempts that were sent. -/
def sends (acts : List Action) : List Nat :=
  acts.filterMap fun
    | .send n => some n
    | _ => none

/-- What was recorded. -/
def records (acts : List Action) : List Bool :=
  acts.filterMap fun
    | .record success => some success
    | _ => none

@[simp] theorem sends_nil : sends [] = [] := rfl

@[simp] theorem records_nil : records [] = [] := rfl

@[simp] theorem sends_append (as bs : List Action) : sends (as ++ bs) = sends as ++ sends bs :=
  List.filterMap_append

@[simp] theorem sends_send (n : Nat) (as : List Action) : sends (.send n :: as) = n :: sends as :=
  rfl

@[simp] theorem records_allow (b : Bool) (as : List Action) :
    records (.allow b :: as) = records as := rfl

@[simp] theorem records_record (b : Bool) (as : List Action) :
    records (.record b :: as) = b :: records as := rfl

@[simp] theorem records_append (as bs : List Action) :
    records (as ++ bs) = records as ++ records bs := List.filterMap_append

@[simp] theorem records_send (n : Nat) (as : List Action) : records (.send n :: as) = records as :=
  rfl

/-- The policy retries this. -/
def RetryPolicy.retryable (toUpper : GoString → GoString) (p : RetryPolicy) (method : GoString)
    (status : Int) : Bool :=
  p.methods.contains (toUpper method) && (status == 0 || p.statuses.contains status)

/-- Attempt `n` is the last: it succeeds, is not one to retry, is as many as there may be, or the
context ends during the wait after it. -/
def Exchange.Stops (toUpper : GoString → GoString) (p : RetryPolicy) (x : Exchange)
    (n : Nat) : Prop :=
  (x.outcome n).err = none ∨ p.retryable toUpper x.method (x.outcome n).status = false ∨
    n = p.max.toNat ∨ x.ended (n + 1) = true

section Loop

variable {toUpper : GoString → GoString} {p : RetryPolicy} {x : Exchange} {fuel n : Nat}
  {last : Attempt}

@[simp] theorem sends_waitFor : sends (p.waitFor x n) = [] := by
  rw [RetryPolicy.waitFor]
  split <;> rfl

@[simp] theorem records_waitFor : records (p.waitFor x n) = [] := by
  rw [RetryPolicy.waitFor]
  split <;> rfl

theorem shouldRetry_eq (hmax : p.max ≠ 0) (method : GoString) (status : Int) :
    p.shouldRetry toUpper method status = p.retryable toUpper method status := by
  rw [RetryPolicy.shouldRetry, RetryPolicy.retryable, decide_eq_false hmax, Bool.false_or]
  cases p.methods.contains (toUpper method) with
  | false => rfl
  | true =>
    by_cases hs : status = 0
    · simp [hs]
    · simp [hs, beq_eq_false_iff_ne.mpr hs]

theorem attemptFrom_ended (hn : 0 < n) (h : x.ended n = true) :
    p.attemptFrom toUpper x (fuel + 1) n last = (p.waitFor x n, last) := by
  rw [RetryPolicy.attemptFrom, if_pos ⟨hn, h⟩]

theorem attemptFrom_round (h : n > 0 → x.ended n = false) :
    p.attemptFrom toUpper x (fuel + 1) n last =
      if (x.outcome n).err = none ∨ (n : Int) ≥ p.max ∨
          p.retryable toUpper x.method (x.outcome n).status = false then
        (p.waitFor x n ++ [.send n], x.outcome n)
      else
        (p.waitFor x n ++ .send n :: (p.attemptFrom toUpper x fuel (n + 1) (x.outcome n)).1,
          (p.attemptFrom toUpper x fuel (n + 1) (x.outcome n)).2) := by
  have hwait : ¬ (n > 0 ∧ x.ended n = true) := by
    rintro ⟨hpos, hended⟩
    rw [h hpos] at hended
    cases hended
  rw [RetryPolicy.attemptFrom, if_neg hwait]
  by_cases herr : (x.outcome n).err = none
  · simp [herr]
  · by_cases hmax : (n : Int) ≥ p.max
    · simp [herr, hmax]
    · have hne : p.max ≠ 0 := by omega
      simp [herr, shouldRetry_eq hne]

/-- The loop makes all attempts up to the first that stops it, and ends as that one does. -/
theorem attemptFrom_spec (last : Attempt) (hfuel : n + fuel = p.max.toNat + 1)
    (hn : n ≤ p.max.toNat) (hgo : n > 0 → x.ended n = false) :
    ∃ m, n ≤ m ∧ x.Stops toUpper p m ∧ (∀ j, n ≤ j → j < m → ¬ x.Stops toUpper p j) ∧
      sends (p.attemptFrom toUpper x fuel n last).1 = List.range' n (m + 1 - n) ∧
      records (p.attemptFrom toUpper x fuel n last).1 = [] ∧
      (p.attemptFrom toUpper x fuel n last).2 = x.outcome m := by
  induction fuel generalizing n last with
  | zero => omega
  | succ fuel ih =>
    rw [attemptFrom_round hgo]
    split
    · next hlast =>
        have hstop : x.Stops toUpper p n := by
          rcases hlast with h | h | h
          · exact .inl h
          · exact .inr (.inr (.inl (by omega)))
          · exact .inr (.inl h)
        exact ⟨n, Nat.le_refl n, hstop, fun j hj hlt => by omega, by simp, by simp, rfl⟩
    · next hmore =>
        rw [not_or, not_or] at hmore
        obtain ⟨herr, hmax, hretry⟩ := hmore
        by_cases hended : x.ended (n + 1) = true
        · obtain ⟨f, rfl⟩ : ∃ f, fuel = f + 1 := ⟨fuel - 1, by omega⟩
          rw [attemptFrom_ended (Nat.succ_pos n) hended]
          exact ⟨n, Nat.le_refl n, .inr (.inr (.inr hended)), fun j hj hlt => by omega,
            by simp, by simp, rfl⟩
        · have hgoes : ¬ x.Stops toUpper p n := by
            rintro (h | h | h | h)
            · exact herr h
            · exact hretry h
            · omega
            · exact hended h
          obtain ⟨m, hle, hstop, hfirst, hs, hr, ho⟩ := ih (x.outcome n)
            (n := n + 1) (by omega) (by omega) fun _ => Bool.eq_false_iff.mpr hended
          refine ⟨m, by omega, hstop, fun j hj hlt => ?_, ?_, by simp [hr], ho⟩
          · rcases Nat.eq_or_lt_of_le hj with rfl | hj
            · exact hgoes
            · exact hfirst j hj hlt
          · rw [show m + 1 - n = (m + 1 - (n + 1)) + 1 by omega, List.range'_succ]
            simp [hs]

theorem attempt_spec (toUpper : GoString → GoString) (p : RetryPolicy) (x : Exchange) :
    ∃ m, x.Stops toUpper p m ∧ (∀ j < m, ¬ x.Stops toUpper p j) ∧
      sends (p.attempt toUpper x).1 = List.range (m + 1) ∧
      records (p.attempt toUpper x).1 = [] ∧ (p.attempt toUpper x).2 = x.outcome m := by
  obtain ⟨m, -, hstop, hfirst, hs, hr, ho⟩ :=
    @attemptFrom_spec toUpper p x (p.max.toNat + 1) 0 {} (Nat.zero_add _) (Nat.zero_le _)
      fun h => absurd h (Nat.lt_irrefl 0)
  refine ⟨m, hstop, fun j hj => hfirst j (Nat.zero_le j) hj, ?_, hr, ho⟩
  rw [RetryPolicy.attempt, hs, List.range_eq_range']
  rfl

end Loop

/-- The breaker is asked and lets it go. -/
def RetryClient.admits (c : RetryClient) (x : Exchange) : Bool :=
  x.encodeErr.isNone && c.breaker.any fun b => (b.allow x.asked).1

section Do

variable {toUpper : GoString → GoString} {c : RetryClient} {x : Exchange} {o : Attempt}

theorem do_eq (ho : (c.retry.attempt toUpper x).2 = o) :
    ((c.do_ toUpper x).2.1, (c.do_ toUpper x).2.2.toClient) = c.toClient.do_ (x.request o) := by
  subst ho
  simp only [RetryClient.do_, Client.do_, Exchange.request]
  cases x.encodeErr with
  | some err => rfl
  | none =>
    cases hb : c.breaker with
    | none => rfl
    | some b =>
      rcases ha : b.allow x.asked with ⟨_ | _, b'⟩
      · simp only [ha]
        rfl
      · simp only [ha]
        rfl

/-- An admitted call records the outcome of its attempts, and no other call records anything. -/
theorem records_do (ho : (c.retry.attempt toUpper x).2 = o)
    (hr : records (c.retry.attempt toUpper x).1 = []) :
    records (c.do_ toUpper x).1 =
      if c.admits x then [!serverFailed o.status o.err] else [] := by
  subst ho
  cases he : x.encodeErr with
  | some err => simp [RetryClient.do_, RetryClient.admits, he]
  | none =>
    cases hb : c.breaker with
    | none => simp [RetryClient.do_, RetryClient.admits, he, hb, hr]
    | some b =>
      rcases ha : b.allow x.asked with ⟨_ | _, b'⟩
      · simp [RetryClient.do_, RetryClient.admits, he, hb, ha]
      · simp [RetryClient.do_, RetryClient.admits, he, hb, ha, hr]

end Do

/-- `attempt` sends the request up to the first attempt `m` that has a reason to be the last, and
returns what that one returns; a method that is not retried is sent once. The breaker is told one
outcome in every call that it admits, the one of attempt `m`. -/
theorem do_attempts (toUpper : GoString → GoString) (c : RetryClient) (x : Exchange) :
    ∃ m, x.Stops toUpper c.retry m ∧ (∀ j < m, ¬ x.Stops toUpper c.retry j) ∧
      sends (c.retry.attempt toUpper x).1 = List.range (m + 1) ∧
      (c.retry.attempt toUpper x).2 = x.outcome m ∧
      (c.retry.methods.contains (toUpper x.method) = false → m = 0) ∧
      (records (c.do_ toUpper x).1 =
        if c.admits x then [!serverFailed (x.outcome m).status (x.outcome m).err] else []) ∧
      ((c.do_ toUpper x).2.1, (c.do_ toUpper x).2.2.toClient) =
        c.toClient.do_ (x.request (x.outcome m)) := by
  obtain ⟨m, hstop, hfirst, hs, hr, ho⟩ := attempt_spec toUpper c.retry x
  refine ⟨m, hstop, hfirst, hs, ho, fun hmethod => ?_, records_do ho hr, do_eq ho⟩
  by_contra hm
  refine hfirst 0 (Nat.pos_of_ne_zero hm) (.inr (.inl ?_))
  rw [RetryPolicy.retryable, hmethod, Bool.false_and]

section Waits

variable {p : RetryPolicy} {n : Nat}

theorem backoff_mem (hd : 0 < p.delay n) (draw : Nat) :
    p.delay n / 2 ≤ p.backoff n draw ∧ p.backoff n draw ≤ p.delay n := by
  simp only [RetryPolicy.backoff, int64N]
  generalize p.delay n = d at hd
  have hhalf : d.tdiv 2 = d / 2 := Int.tdiv_eq_ediv_of_nonneg (Int.le_of_lt hd)
  rw [hhalf]
  split
  · omega
  · have hlow := Int.emod_nonneg (draw : Int) (show d / 2 + 1 ≠ 0 by omega)
    have hhigh := Int.emod_lt_of_pos (draw : Int) (show 0 < d / 2 + 1 by omega)
    omega

theorem backoff_ends (hd : 1 < p.delay n) :
    p.backoff n 0 = p.delay n / 2 ∧
      p.backoff n (p.delay n / 2).toNat = 2 * (p.delay n / 2) := by
  simp only [RetryPolicy.backoff, int64N]
  generalize p.delay n = d at hd
  have hhalf : d.tdiv 2 = d / 2 := Int.tdiv_eq_ediv_of_nonneg (by omega)
  have hcast : ((d / 2).toNat : Int) = d / 2 := Int.toNat_of_nonneg (by omega)
  simp only [hhalf, if_neg (show ¬ d / 2 ≤ 0 by omega), hcast]
  refine ⟨by simp, ?_⟩
  rw [Int.emod_eq_of_lt (by omega) (by omega)]
  omega

end Waits

/-- The delay one expects. -/
def doubled (base : Int) (n : Nat) : Int := min (base * 2 ^ (n - 1)) defaultMaxBackoff

/-- While the delay is shifted it has not wrapped around; afterwards it would be beyond the cap. -/
def Doubles (base : Int) (n : Nat) : Prop :=
  if n ≤ 31 then
    base * 2 ^ (n - 1) < 2 ^ 63 ∨ base * 2 ^ (n - 1) % 2 ^ 64 = 0 ∨
      defaultMaxBackoff ≤ base * 2 ^ (n - 1) % 2 ^ 64
  else defaultMaxBackoff ≤ base * 2 ^ (n - 1)

section Waits

variable {p : RetryPolicy} {n : Nat}

theorem delay_cases (hmax : p.maxBackoff = defaultMaxBackoff) (hb : 0 < p.base) (hn : 1 ≤ n) :
    (Doubles p.base n ∧ p.delay n = doubled p.base n) ∨
      (¬ Doubles p.base n ∧ 0 < p.delay n ∧ p.delay n ≤ defaultMaxBackoff ∧
        (p.delay n < doubled p.base n ∧ doubled p.base n = defaultMaxBackoff ∨
          doubled p.base n < p.delay n ∧ p.delay n = defaultMaxBackoff)) := by
  have hpos : 0 < p.base * 2 ^ (n - 1) := Int.mul_pos hb (Int.pow_pos (by decide))
  have hwant : doubled p.base n ≤ p.base * 2 ^ (n - 1) ∧ doubled p.base n ≤ defaultMaxBackoff ∧
      (doubled p.base n = p.base * 2 ^ (n - 1) ∨ doubled p.base n = defaultMaxBackoff) :=
    ⟨min_le_left _ _, min_le_right _ _, min_choice _ _⟩
  have hcap : defaultMaxBackoff = 30000000000 := rfl
  simp only [Doubles, RetryPolicy.delay, hmax, int64]
  generalize p.base * 2 ^ (n - 1) = x at hpos hwant
  generalize doubled p.base n = want at hwant
  generalize defaultMaxBackoff = cap at hwant hcap
  by_cases hshift : n ≤ 31
  · have hwrap : x.bmod UInt64.size = x % 2 ^ 64 ∨
        x.bmod UInt64.size < 0 ∧ 2 ^ 63 ≤ x % 2 ^ 64 := by
      rw [Int.bmod, UInt64.size]
      omega
    simp only [hshift, if_true, show n - 1 < 31 by omega]
    generalize x.bmod UInt64.size = grown at hwrap
    by_cases hsmall : grown > 0 ∧ grown < cap
    · rw [if_pos hsmall]
      omega
    · rw [if_neg hsmall]
      omega
  · rw [if_neg hshift, if_neg (show ¬ n - 1 < 31 by omega)]
    omega

theorem newClient_maxBackoff (toUpper : GoString → GoString) (opts : List ClientOption) :
    (newClient toUpper opts).retry.maxBackoff = defaultMaxBackoff := by
  have hkeep : ∀ c : RetryClient, c.retry.maxBackoff = defaultMaxBackoff →
      (opts.foldl (ClientOption.apply toUpper) c).retry.maxBackoff = defaultMaxBackoff := by
    induction opts with
    | nil => exact fun c hc => hc
    | cons o opts ih =>
      intro c hc
      refine ih _ ?_
      cases o <;> exact hc
  exact hkeep {} rfl

/-- The wait before attempt `n` is in the upper half of the doubled delay, whatever is drawn,
exactly if the doubling has come out right. -/
theorem backoff_doubles_iff (toUpper : GoString → GoString) (opts : List ClientOption)
    (p : RetryPolicy) (hmax : p.maxBackoff = (newClient toUpper opts).retry.maxBackoff)
    (hbase : 1 ≤ p.base) (n : Nat) (hn : 1 ≤ n) :
    (∀ draw, doubled p.base n / 2 ≤ p.backoff n draw ∧ p.backoff n draw ≤ doubled p.base n) ↔
      Doubles p.base n := by
  have hcases := delay_cases (hmax.trans (newClient_maxBackoff toUpper opts)) hbase hn
  have hcap : defaultMaxBackoff = 30000000000 := rfl
  constructor
  · intro hall
    by_contra hnot
    obtain ⟨-, hd, hle, hoff⟩ := hcases.resolve_left fun h => hnot h.1
    have hlow := (hall 0).1
    by_cases hone : p.delay n = 1
    · have hhigh := (backoff_mem hd 0).2
      omega
    · obtain ⟨hleast, hgreatest⟩ := backoff_ends (p := p) (n := n) (by omega)
      have hhigh := (hall (p.delay n / 2).toNat).2
      omega
  · intro hdoubles draw
    obtain ⟨-, hd⟩ := hcases.resolve_right fun h => h.1 hdoubles
    have hpos : 0 < doubled p.base n :=
      lt_min (Int.mul_pos hbase (Int.pow_pos (by decide))) (by decide)
    rw [← hd] at hpos ⊢
    exact backoff_mem hpos draw

theorem backoff_default_second :
    1 ≤ ({} : RetryPolicy).base ∧
      ∀ draw, 100000000 ≤ ({} : RetryPolicy).backoff 2 draw ∧
        ({} : RetryPolicy).backoff 2 draw ≤ 200000000 :=
  ⟨by decide, (backoff_doubles_iff (fun s => s) [] {} rfl (by decide) 2 (by decide)).mpr
    (.inl (by decide))⟩

/-- With a base of 17 seconds the shift before attempt 31 wraps around, and the wait is about a
second; with one of 1 nanosecond the cap comes before attempt 32, with the delay at 2 seconds. -/
theorem backoff_off :
    ({ base := 2 ^ 34 + 1 } : RetryPolicy).backoff 31 0 < doubled (2 ^ 34 + 1) 31 / 2 ∧
      doubled 1 32 < ({ base := 1 } : RetryPolicy).backoff 32 0 := by decide

end Waits

end Microjet.Httpx
