import Microjet.Httpx.Client
import Microjet.Lib.Machine

/-!
# The breaker and its specification

When requests come one at a time, the breaker's fields say what the specification reads off the
outcomes (`Tracks`). The code takes for a failure of the server what the specification does,
but for two kinds of ending (`serverFailed_iff`); as long as no attempt ends so the breaker does
what it is for (`breaker_refines_spec`).
-/

namespace Microjet.Httpx

open Machine

namespace Spec

theorem trailing_failed {o : Outcome} {h : List Outcome} (ho : o.failed = true) :
    trailing (o :: h) = o :: trailing h := List.takeWhile_cons_of_pos ho

theorem trailing_other {o : Outcome} {h : List Outcome} (ho : o.failed = false) :
    trailing (o :: h) = [] :=
  List.takeWhile_cons_of_neg (by rw [ho]; exact Bool.false_ne_true)

end Spec

namespace CircuitBreaker

open Spec

/-- The fields agree with the outcomes; a failed trial is not in `failures`. -/
structure Tracks (b : CircuitBreaker) (h : List Outcome) : Prop where
  positive : 0 < b.threshold
  settled : b.state ≠ .breakerHalfOpen
  closed : b.state = .breakerClosed →
    b.failures = (trailing h).length ∧ b.failures < b.threshold
  opened : b.state = .breakerOpen →
    b.threshold ≤ (trailing h).length ∧ ∃ o rest, trailing h = o :: rest ∧ b.openedAt = o.time

variable {b : CircuitBreaker} {h : List Outcome} {now time : Int}

theorem tracks_new (threshold cooldown : Int) :
    (newCircuitBreaker threshold cooldown).Tracks [] where
  positive := by
    show 0 < if threshold ≤ 0 then defaultBreakerThreshold else threshold
    split
    · decide
    · omega
  settled := nofun
  closed := by
    intro _
    refine ⟨rfl, ?_⟩
    show 0 < if threshold ≤ 0 then defaultBreakerThreshold else threshold
    split
    · decide
    · omega
  opened := nofun

theorem Tracks.allow_eq (hb : b.Tracks h) :
    (b.allow now).1 = !refuses b.threshold b.cooldown h now := by
  rw [allow, refuses]
  cases hs : b.state with
  | breakerClosed =>
    obtain ⟨hcount, hlt⟩ := hb.closed hs
    rw [decide_eq_false (by omega)]
    rfl
  | breakerOpen =>
    obtain ⟨hmany, o, rest, htrail, hat⟩ := hb.opened hs
    rw [decide_eq_true hmany, htrail, hat]
    by_cases hlong : now - o.time ≥ b.cooldown
    · simp [hlong]
    · simp [hlong, Int.not_le.mp hlong]
  | breakerHalfOpen => exact absurd hs hb.settled

theorem record_success (hpos : 0 < b.threshold) {o : Outcome} (ho : o.failed = false) :
    (b.record time true).Tracks (o :: h) where
  positive := hpos
  settled := nofun
  closed := fun _ => ⟨by rw [trailing_other ho]; rfl, hpos⟩
  opened := nofun

theorem Tracks.record_failure (hb : b.Tracks h) (ha : (b.allow now).1 = true) {o : Outcome}
    (ho : o.failed = true) : ((b.allow now).2.record o.time false).Tracks (o :: h) := by
  have htrail : trailing (o :: h) = o :: trailing h := trailing_failed ho
  cases hs : b.state with
  | breakerClosed =>
    obtain ⟨hcount, hlt⟩ := hb.closed hs
    have hallow : (b.allow now).2 = b := by rw [allow, hs]
    rw [hallow, record, if_neg Bool.false_ne_true, if_neg (by simp [hs])]
    split
    · next hmany =>
        refine ⟨hb.positive, by simp, by simp, fun _ => ⟨?_, o, _, htrail, rfl⟩⟩
        rw [htrail, List.length_cons]
        push_cast
        show b.threshold ≤ _
        omega
    · next hfew =>
        refine ⟨hb.positive, fun hx => ?_, fun _ => ⟨?_, Int.not_le.mp hfew⟩, fun hx => ?_⟩
        · cases hs.symm.trans hx
        · rw [htrail, List.length_cons]
          push_cast
          rw [← hcount]
        · cases hs.symm.trans hx
  | breakerOpen =>
    -- the request was the trial, since `allow` let it through
    obtain ⟨hmany, -⟩ := hb.opened hs
    have hallow :
        (b.allow now).2 = { b with state := .breakerHalfOpen, trialActive := true } := by
      rw [allow, hs] at ha ⊢
      simp only at ha ⊢
      split at ha
      · next hlong => rw [if_pos hlong]
      · cases ha
    rw [hallow, record, if_neg Bool.false_ne_true, if_pos rfl]
    refine ⟨hb.positive, by simp, by simp, fun _ => ⟨?_, o, _, htrail, rfl⟩⟩
    rw [htrail, List.length_cons]
    push_cast
    show b.threshold ≤ _
    omega
  | breakerHalfOpen => exact absurd hs hb.settled

theorem Tracks.attempted (hb : b.Tracks h) (ha : (b.allow now).1 = true) (o : Outcome) :
    ((b.allow now).2.record o.time (!o.failed)).Tracks (o :: h) := by
  cases ho : o.failed with
  | true => exact hb.record_failure ha ho
  | false =>
    refine record_success ?_ ho
    rw [allow_settings.1]
    exact hb.positive

end CircuitBreaker

/-- The request was built, and a response has a status from 1 to 599. -/
def Ending.Counted : Ending → Prop
  | .unbuilt _ => False
  | .answered status _ _ => status ≠ 0 ∧ status < 600
  | _ => True

theorem serverFailed_iff (r : Sent) :
    r.request.serverFailed = Spec.serverSide r.ending ↔ r.ending.Counted := by
  show serverFailed (doOnce r.url r.ending).1 (doOnce r.url r.ending).2 = _ ↔ _
  cases r.ending with
  | unbuilt err => simp [doOnce, serverFailed, Spec.serverSide, Ending.Counted]
  | unanswered err => simp [doOnce, serverFailed, Spec.serverSide, Ending.Counted]
  | brokenOff status err => simp [doOnce, serverFailed, Spec.serverSide, Ending.Counted]
  | answered status body decodeErr =>
    rw [doOnce, serverFailed, Spec.serverSide, Ending.Counted]
    split
    · rw [Bool.eq_iff_iff]
      simp only [Option.isSome_some, Bool.true_and, Bool.or_eq_true, beq_iff_eq,
        Bool.and_eq_true, decide_eq_true_eq]
      omega
    · -- a 2xx is no failure, also when its body cannot be decoded
      rw [decide_eq_false (by omega : ¬ status ≥ 500), beq_false_of_ne (by omega)]
      simp only [Bool.or_self, Bool.and_false, Bool.false_and, true_iff]
      omega

/-- The breaker of the client tracks the outcomes. -/
def Client.InStep (threshold cooldown : Int) (c : Client) (h : List Spec.Outcome) : Prop :=
  ∃ b, c.breaker = some b ∧ b.threshold = threshold ∧ b.cooldown = cooldown ∧ b.Tracks h

variable {threshold cooldown : Int} {h : List Spec.Outcome}

theorem Client.InStep.step {c : Client} (hc : c.InStep threshold cooldown h) (r : Sent)
    (hr : r.encodeErr = none → Spec.refuses threshold cooldown h r.asked = false →
      r.ending.Counted) :
    (c.do_ r.request).1 = (Spec.do_ threshold cooldown h r).1 ∧
      (c.do_ r.request).2.InStep threshold cooldown (Spec.do_ threshold cooldown h r).2 := by
  obtain ⟨b, hb, hth, hcd, htracks⟩ := hc
  have hencode : r.request.encodeErr = r.encodeErr := rfl
  have hasked : r.request.asked = r.asked := rfl
  rw [Client.do_, Spec.do_, hencode, hasked]
  cases henc : r.encodeErr with
  | some err => exact ⟨rfl, b, hb, hth, hcd, htracks⟩
  | none =>
    have hallow : (b.allow r.asked).1 = !Spec.refuses threshold cooldown h r.asked := by
      rw [htracks.allow_eq, hth, hcd]
    cases hd : b.allow r.asked with
    | mk admitted b' =>
      have hfst : (b.allow r.asked).1 = admitted := by rw [hd]
      have hsnd : (b.allow r.asked).2 = b' := by rw [hd]
      obtain ⟨hth', hcd'⟩ : b'.threshold = threshold ∧ b'.cooldown = cooldown := by
        rw [← hsnd, CircuitBreaker.allow_settings.1, CircuitBreaker.allow_settings.2]
        exact ⟨hth, hcd⟩
      rw [hb]
      simp only [hd]
      cases admitted with
      | false =>
        have hrefuses : Spec.refuses threshold cooldown h r.asked = true := by
          rw [← Bool.not_eq_false', ← hallow, hfst]
        rw [if_pos hrefuses]
        have hsame : b' = b := hsnd.symm.trans (CircuitBreaker.allow_refused hfst)
        exact ⟨rfl, b', rfl, hth', hcd', hsame ▸ htracks⟩
      | true =>
        have hrefuses : Spec.refuses threshold cooldown h r.asked = false := by
          rw [← Bool.not_eq_true', ← hallow, hfst]
        rw [if_neg (by rw [hrefuses]; exact Bool.false_ne_true)]
        refine ⟨rfl, _, rfl, ?_, ?_, ?_⟩
        · rw [CircuitBreaker.record_settings.1, hth']
        · rw [CircuitBreaker.record_settings.2, hcd']
        · rw [← hsnd, (serverFailed_iff r).mpr (hr henc hrefuses)]
          exact htracks.attempted hfst ⟨r.answered, Spec.serverSide r.ending⟩

theorem Client.InStep.outputs_eq {rs : List Sent} {c : Client} (hc : c.InStep threshold cooldown h)
    (hrs : ∀ r ∈ Spec.attempted threshold cooldown h rs, r.ending.Counted) :
    outputs Client.do_ c (rs.map Sent.request) =
      outputs (Spec.do_ threshold cooldown) h rs := by
  induction rs generalizing c h with
  | nil => rfl
  | cons r rs ih =>
    rw [Spec.attempted] at hrs
    obtain ⟨hreply, hnext⟩ := hc.step r fun henc hadmit =>
      hrs r (by rw [if_pos ⟨henc, hadmit⟩]; exact List.mem_cons_self)
    rw [List.map_cons, outputs, outputs, hreply, ih hnext fun r' hr' => hrs r' ?_]
    split
    · exact List.mem_cons_of_mem r hr'
    · exact hr'

/-- Requests one at a time get the replies of the specification, as long as the attempted ones
end so that both count alike. The times need not even increase. -/
theorem breaker_refines_spec (threshold cooldown : Int) (rs : List Sent)
    (hrs : ∀ r ∈ Spec.attempted (if threshold ≤ 0 then defaultBreakerThreshold else threshold)
      (if cooldown ≤ 0 then defaultBreakerCooldown else cooldown) [] rs, r.ending.Counted) :
    outputs Client.do_ (withCircuitBreaker threshold cooldown {}) (rs.map Sent.request) =
      outputs (Spec.do_ (if threshold ≤ 0 then defaultBreakerThreshold else threshold)
        (if cooldown ≤ 0 then defaultBreakerCooldown else cooldown)) [] rs := by
  have hinit : (withCircuitBreaker threshold cooldown {}).InStep
      (if threshold ≤ 0 then defaultBreakerThreshold else threshold)
      (if cooldown ≤ 0 then defaultBreakerCooldown else cooldown) [] :=
    ⟨_, rfl, rfl, rfl, CircuitBreaker.tracks_new threshold cooldown⟩
  exact hinit.outputs_eq hrs

/-- A 503 opens the breaker, which refuses the request at 5 and admits the one at 10. -/
def outage : List Sent :=
  [⟨"/a", none, 0, 0, .answered 503 "" none⟩, ⟨"/b", none, 5, 5, .answered 200 "" none⟩,
    ⟨"/c", none, 10, 10, .answered 200 "" none⟩]

/-- An outage, with a request refused during the cooldown. -/
theorem outage_refines : outputs Client.do_ (withCircuitBreaker 1 10 {})
    (outage.map Sent.request) = outputs (Spec.do_ 1 10) [] outage :=
  breaker_refines_spec 1 10 outage (by
    intro r hr
    have hr : r ∈ [outage[0], outage[2]] := hr
    simp only [List.mem_cons, List.not_mem_nil, or_false] at hr
    rcases hr with rfl | rfl <;> exact ⟨by decide, by decide⟩)

/-- An upstream that answers 999 opens the breaker, and the specification knows no failure. -/
theorem status_999_counted :
    let rs : List Sent := [⟨"/a", none, 0, 0, .answered 999 "" none⟩,
      ⟨"/b", none, 5, 5, .answered 200 "" none⟩]
    (outputs Client.do_ (withCircuitBreaker 1 10 {}) (rs.map Sent.request))[1]? =
        some (.refused (Request.breakerFailure (Sent.request
          ⟨"/b", none, 5, 5, .answered 200 "" none⟩))) ∧
      (outputs (Spec.do_ 1 10) [] rs)[1]? = some (.attempted none) := by
  exact ⟨rfl, rfl⟩

end Microjet.Httpx
