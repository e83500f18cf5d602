import Microjet.Httpx.Breaker
import Microjet.Lib.Run

/-!
# The breaker under concurrent requests

Every `record` leaves the half-open state, so the trial flag never outlives it (`Sane`). But
`record` does not know who is calling: an outcome from before the trial is taken for that of the
trial (`two_trials`), and one that comes in while the breaker is open closes it
(`admitted_early`).
-/

namespace Microjet.Httpx

open Trace

namespace CircuitBreaker

variable {b : CircuitBreaker} {now : Int}

theorem allow_admitted (h : (b.allow now).1 = true) :
    (b.state = .breakerClosed ∧ (b.allow now).2 = b) ∨
    (b.state = .breakerOpen ∧ b.openedAt + b.cooldown ≤ now ∧
      (b.allow now).2 = { b with state := .breakerHalfOpen, trialActive := true }) ∨
    (b.state = .breakerHalfOpen ∧ b.trialActive = false) := by
  unfold allow at h ⊢
  split at h
  · next hopen =>
      split at h
      · next hle => exact .inr (.inl ⟨hopen, by omega, by simp [hle]⟩)
      · simp at h
  · next hhalf =>
      split at h
      · next hactive => exact .inr (.inr ⟨hhalf, by simpa using hactive⟩)
      · simp at h
  · next hclosed => exact .inl ⟨hclosed, rfl⟩

theorem allow_closed (h : b.state = .breakerClosed) : (b.allow now).1 = true := by
  unfold allow
  rw [h]

theorem allow_open (h : b.state = .breakerOpen) :
    (b.allow now).1 = true ↔ b.openedAt + b.cooldown ≤ now := by
  unfold allow
  rw [h]
  show (if now - b.openedAt ≥ b.cooldown then _ else _ : Bool × CircuitBreaker).1 = true ↔ _
  split
  · next hle => exact ⟨fun _ => by omega, fun _ => rfl⟩
  · next hlt => exact ⟨fun h => absurd h (by simp), fun hle => absurd hle (by omega)⟩

theorem record_cases (b : CircuitBreaker) (now : Int) (success : Bool) :
    ((b.record now success).state = .breakerClosed ∧
      (b.record now success).failures = 0 ∧
      (b.record now success).trialActive = false) ∨
    ((b.record now success).state = .breakerOpen ∧
      (b.record now success).openedAt = now ∧
      ((b.record now success).trialActive = false ∨
        (b.state ≠ .breakerHalfOpen ∧
          (b.record now success).trialActive = b.trialActive))) ∨
    (b.state ≠ .breakerHalfOpen ∧ b.failures + 1 < b.threshold ∧
      b.record now success = { b with failures := b.failures + 1 }) := by
  unfold record
  split
  · exact .inl ⟨rfl, rfl, rfl⟩
  · split
    · exact .inr (.inl ⟨rfl, rfl, .inl rfl⟩)
    · next hhalf =>
        split
        · exact .inr (.inl ⟨rfl, rfl, .inr ⟨hhalf, rfl⟩⟩)
        · exact .inr (.inr ⟨hhalf, by omega, rfl⟩)

end CircuitBreaker

namespace Traffic

variable {s s' : Traffic}

theorem mem_inFlight {a : Admission} :
    a ∈ s.inFlight ↔ a ∈ s.admitted ∧ a.id ∉ s.recorded := by
  simp [inFlight]

variable {c : Call}

theorem step_cases (h : s.step c = some s') :
    (∃ now, c = .allow now ∧ s.now ≤ now ∧ (s.breaker.allow now).1 = true ∧
      s' = s.enter now) ∨
    (∃ now, c = .allow now ∧ s.now ≤ now ∧ (s.breaker.allow now).1 = false ∧
      s' = { s with now }) ∨
    (∃ id now success, c = .record id now success ∧ s.now ≤ now ∧
      (∃ a ∈ s.inFlight, a.id = id) ∧
      s' = { s with
        breaker := s.breaker.record now success
        now
        recorded := id :: s.recorded }) := by
  cases c with
  | allow now =>
    simp only [step] at h
    split at h
    · simp at h
    · next hnow =>
        split at h
        · next hok => exact .inl ⟨now, rfl, by omega, hok, (Option.some.inj h).symm⟩
        · next hok =>
            have hno : (s.breaker.allow now).1 = false := by simpa using hok
            rw [CircuitBreaker.allow_refused hno] at h
            exact .inr (.inl ⟨now, rfl, by omega, hno, (Option.some.inj h).symm⟩)
  | record id now success =>
    simp only [step] at h
    split at h
    · simp at h
    · next hcond =>
        obtain ⟨hnow, hmem⟩ := not_or.mp hcond
        have hin : ∃ a ∈ s.inFlight, a.id = id := by simpa using hmem
        exact .inr (.inr ⟨id, now, success, rfl, by omega, hin,
          (Option.some.inj h).symm⟩)

/-! ### The invariant -/

/-- The flag is set in the half-open state only, which waits for its trial. -/
structure Sane (s : Traffic) : Prop where
  trial_iff : s.breaker.trialActive = true ↔ s.breaker.state = .breakerHalfOpen
  half_open : s.breaker.state = .breakerHalfOpen →
    ∃ a, s.lastTrial = some a ∧ a ∈ s.inFlight
  closed : s.breaker.state = .breakerClosed →
    s.breaker.failures < s.breaker.threshold
  threshold_pos : 0 < s.breaker.threshold
  opened : s.breaker.state ≠ .breakerClosed → s.breaker.openedAt ≤ s.now
  ids : ∀ a ∈ s.admitted, a.id < s.admitted.length
  fresh : ∀ id ∈ s.recorded, id < s.admitted.length

theorem start_sane (threshold : Int) (cooldown : Int) (now : Int) :
    (start threshold cooldown now).Sane := by
  have hpos : 0 < (newCircuitBreaker threshold cooldown).threshold := by
    show 0 < (if threshold ≤ 0 then defaultBreakerThreshold else threshold)
    split
    · decide
    · omega
  exact {
    trial_iff := by simp [start, newCircuitBreaker]
    half_open := fun h => by simp [start, newCircuitBreaker] at h
    closed := fun _ => hpos
    threshold_pos := hpos
    opened := fun h => by simp [start, newCircuitBreaker] at h
    ids := fun _ h => by simp [start] at h
    fresh := fun _ h => by simp [start] at h }

theorem Sane.not_half_open (hs : s.Sane) (h : s.breaker.trialActive = false) :
    s.breaker.state ≠ .breakerHalfOpen := by
  intro hhalf
  rw [hs.trial_iff.mpr hhalf] at h
  simp at h

theorem Sane.enter_inFlight (hs : s.Sane) (now : Int) {a : Admission} :
    a ∈ (s.enter now).inFlight ↔
      a = ⟨s.admitted.length, s.breaker.state ≠ .breakerClosed⟩ ∨ a ∈ s.inFlight := by
  have hfresh : s.admitted.length ∉ s.recorded := by
    intro hmem
    have := hs.fresh _ hmem
    omega
  rw [mem_inFlight, mem_inFlight, enter, List.mem_cons]
  constructor
  · intro h
    obtain ⟨hnew | hold, hrec⟩ := h
    · exact .inl hnew
    · exact .inr ⟨hold, hrec⟩
  · intro h
    cases h with
    | inl hnew =>
      rw [hnew]
      exact ⟨.inl rfl, hfresh⟩
    | inr hold => exact ⟨.inr hold.1, hold.2⟩

theorem Sane.enter (hs : s.Sane) {now : Int} (hnow : s.now ≤ now)
    (hok : (s.breaker.allow now).1 = true) : (s.enter now).Sane := by
  have hfresh : ∀ id ∈ (s.enter now).recorded, id < (s.enter now).admitted.length := by
    intro id hid
    have := hs.fresh id hid
    simp only [Traffic.enter, List.length_cons]
    omega
  have hids : ∀ a ∈ (s.enter now).admitted, a.id < (s.enter now).admitted.length := by
    intro a ha
    simp only [Traffic.enter, List.length_cons] at ha ⊢
    cases List.mem_cons.mp ha with
    | inl hnew =>
      rw [hnew]
      show s.admitted.length < s.admitted.length + 1
      omega
    | inr hold =>
      have := hs.ids a hold
      omega
  have hpos : 0 < (s.enter now).breaker.threshold := by
    show 0 < (s.breaker.allow now).2.threshold
    rw [CircuitBreaker.allow_settings.1]
    exact hs.threshold_pos
  have hbreaker : (s.enter now).breaker = (s.breaker.allow now).2 := rfl
  obtain ⟨hclosed, hb⟩ | ⟨hopen, hle, hb⟩ | ⟨hhalf, hactive⟩ :=
    CircuitBreaker.allow_admitted hok
  · rw [hb] at hbreaker
    exact {
      trial_iff := by
        rw [hbreaker]
        exact hs.trial_iff
      half_open := fun h => by
        rw [hbreaker, hclosed] at h
        simp at h
      closed := by
        rw [hbreaker]
        exact hs.closed
      threshold_pos := hpos
      opened := fun h => by
        rw [hbreaker] at h
        exact absurd hclosed h
      ids := hids
      fresh := hfresh }
  · rw [hb] at hbreaker
    exact {
      trial_iff := by simp [hbreaker]
      half_open := fun _ => by
        refine ⟨⟨s.admitted.length, s.breaker.state ≠ .breakerClosed⟩, ?_,
          (hs.enter_inFlight now).mpr (.inl rfl)⟩
        simp [lastTrial, Traffic.enter, hopen]
      closed := fun h => by simp [hbreaker] at h
      threshold_pos := hpos
      opened := fun _ => by
        have hopened := hs.opened (by simp [hopen])
        rw [hbreaker]
        show s.breaker.openedAt ≤ now
        omega
      ids := hids
      fresh := hfresh }
  · exact absurd hhalf (hs.not_half_open hactive)

theorem Sane.refuse (hs : s.Sane) {now : Int} (hnow : s.now ≤ now) :
    Sane { s with now } where
  trial_iff := hs.trial_iff
  half_open := hs.half_open
  closed := hs.closed
  threshold_pos := hs.threshold_pos
  opened := fun h => Int.le_trans (hs.opened h) hnow
  ids := hs.ids
  fresh := hs.fresh

variable {success : Bool} {id : Nat}

theorem Sane.record (hs : s.Sane) {now : Int} (hnow : s.now ≤ now)
    (hin : ∃ a ∈ s.inFlight, a.id = id) :
    Sane { s with
      breaker := s.breaker.record now success
      now
      recorded := id :: s.recorded } := by
  have hfresh : ∀ i ∈ id :: s.recorded, i < s.admitted.length := by
    intro i hi
    obtain ⟨a, ha, haid⟩ := hin
    cases List.mem_cons.mp hi with
    | inl hid =>
      rw [hid, ← haid]
      exact hs.ids a (mem_inFlight.mp ha).1
    | inr hold => exact hs.fresh i hold
  have hpos : 0 < (s.breaker.record now success).threshold := by
    rw [CircuitBreaker.record_settings.1]
    exact hs.threshold_pos
  obtain ⟨hst, hzero, hactive⟩ | ⟨hst, hat, hactive⟩ | ⟨hhalf, hlt, hb⟩ :=
    CircuitBreaker.record_cases s.breaker now success
  · exact {
      trial_iff := by simp [hst, hactive]
      half_open := fun h => by simp [hst] at h
      closed := fun _ => by
        show (s.breaker.record now success).failures < _
        rw [hzero]
        exact hpos
      threshold_pos := hpos
      opened := fun h => absurd hst h
      ids := hs.ids
      fresh := hfresh }
  -- it opened: outside the half-open state no trial was active to begin with
  · have hoff : (s.breaker.record now success).trialActive = false := by
      obtain hoff | ⟨hhalf, hsame⟩ := hactive
      · exact hoff
      · rw [hsame]
        cases hact : s.breaker.trialActive with
        | false => rfl
        | true => exact absurd (hs.trial_iff.mp hact) hhalf
    exact {
      trial_iff := by simp [hst, hoff]
      half_open := fun h => by simp [hst] at h
      closed := fun h => by simp [hst] at h
      threshold_pos := hpos
      opened := fun _ => by
        show (s.breaker.record now success).openedAt ≤ now
        rw [hat]
      ids := hs.ids
      fresh := hfresh }
  · have hstate : (s.breaker.record now success).state = s.breaker.state := by rw [hb]
    exact {
      trial_iff := by
        rw [hb]
        exact hs.trial_iff
      half_open := fun h => absurd (hstate ▸ h) hhalf
      closed := fun _ => by
        rw [hb]
        exact hlt
      threshold_pos := hpos
      opened := fun h => by
        have hopened := hs.opened (hstate ▸ h)
        show (s.breaker.record now success).openedAt ≤ now
        rw [hb]
        show s.breaker.openedAt ≤ now
        omega
      ids := hs.ids
      fresh := hfresh }

theorem Sane.step (hs : s.Sane) (h : s.step c = some s') : s'.Sane := by
  obtain ⟨now, _, hnow, hok, rfl⟩ | ⟨now, _, hnow, _, rfl⟩ |
    ⟨id, now, success, _, hnow, hin, rfl⟩ := step_cases h
  · exact hs.enter hnow hok
  · exact hs.refuse hnow
  · exact hs.record hnow hin

theorem run_sane {threshold cooldown t₀ : Int} {calls : List Call}
    (h : run step (start threshold cooldown t₀) calls = some s) : s.Sane :=
  run_inv (fun _ _ _ hs _ hstep => hs.step hstep) (start_sane threshold cooldown t₀)
    (along_of_forall (fun _ _ => trivial) _ _) h

/-- A half-open breaker waits for its last trial. With nobody in flight the breaker admits from
`openedAt + cooldown` on, and a closed one always does. -/
theorem never_locks_out {threshold cooldown t₀ : Int} {calls : List Call}
    (h : run step (start threshold cooldown t₀) calls = some s) :
    (s.breaker.trialActive = true ↔ s.breaker.state = .breakerHalfOpen) ∧
    (s.breaker.state = .breakerHalfOpen →
      ∃ a, s.lastTrial = some a ∧ a ∈ s.inFlight) ∧
    (s.breaker.state = .breakerClosed →
      s.breaker.failures < s.breaker.threshold) ∧
    (s.inFlight = [] → ∀ now, s.breaker.openedAt + s.breaker.cooldown ≤ now →
      (s.breaker.allow now).1 = true) ∧
    (s.breaker.state = .breakerClosed → ∀ now, (s.breaker.allow now).1 = true) ∧
    (s.breaker.state ≠ .breakerClosed → s.breaker.openedAt ≤ s.now) := by
  have hs := run_sane h
  refine ⟨hs.trial_iff, hs.half_open, hs.closed, fun hnone now hle => ?_,
    fun hclosed now => CircuitBreaker.allow_closed hclosed, hs.opened⟩
  cases hst : s.breaker.state with
  | breakerClosed => exact CircuitBreaker.allow_closed hst
  | breakerOpen => exact (CircuitBreaker.allow_open hst).mpr hle
  | breakerHalfOpen =>
    obtain ⟨a, _, ha⟩ := hs.half_open hst
    rw [hnone] at ha
    simp at ha

/-- A breaker after one failure. -/
def justOpened : Traffic where
  breaker := {
    threshold := 1, cooldown := 10, state := .breakerOpen, failures := 1, openedAt := 0 }
  now := 0
  admitted := [⟨0, false⟩]
  recorded := [0]

theorem never_locks_out_opened :
    run step (start 1 10 0) [.allow 0, .record 0 0 false] = some justOpened ∧
      (justOpened.breaker.allow 10).1 = true := by
  have hrun : run step (start 1 10 0) [.allow 0, .record 0 0 false] =
      some justOpened := rfl
  exact ⟨hrun, (never_locks_out hrun).2.2.2.1 rfl 10 (by decide)⟩

/-! ### One trial at a time -/

/-- Whoever records in the half-open state was admitted as a trial. -/
def OwnOutcome (s : Traffic) : Call → Prop
  | .allow _ => True
  | .record id _ _ => s.breaker.state = .breakerHalfOpen →
      ∃ a ∈ s.inFlight, a.id = id ∧ a.trial = true

instance (s : Traffic) : ∀ c, Decidable (s.OwnOutcome c)
  | .allow _ => inferInstanceAs (Decidable True)
  | .record id _ _ => inferInstanceAs (Decidable (s.breaker.state = .breakerHalfOpen →
      ∃ a ∈ s.inFlight, a.id = id ∧ a.trial = true))

/-- The breaker waits for every trial in flight. -/
def TrialAwaited (s : Traffic) : Prop :=
  ∀ a ∈ s.inFlight, a.trial = true →
    s.breaker.state = .breakerHalfOpen ∧ s.lastTrial = some a

theorem TrialAwaited.enter (hs : s.Sane) (ht : s.TrialAwaited) {now : Int}
    (hok : (s.breaker.allow now).1 = true) : (s.enter now).TrialAwaited := by
  intro a ha htrial
  have hmem := (hs.enter_inFlight now).mp ha
  obtain ⟨hclosed, _⟩ | ⟨hopen, _, hb⟩ | ⟨hhalf, hactive⟩ :=
    CircuitBreaker.allow_admitted hok
  · -- the new request is no trial, and no old one is in flight
    cases hmem with
    | inl hnew =>
      rw [hnew] at htrial
      simp [hclosed] at htrial
    | inr hold =>
      have hhalf := (ht a hold htrial).1
      rw [hclosed] at hhalf
      simp at hhalf
  · cases hmem with
    | inl hnew =>
      refine ⟨?_, ?_⟩
      · show (s.breaker.allow now).2.state = _
        rw [hb]
      · rw [hnew]
        simp [lastTrial, Traffic.enter, hopen]
    | inr hold =>
      have hhalf := (ht a hold htrial).1
      rw [hopen] at hhalf
      simp at hhalf
  · exact absurd hhalf (hs.not_half_open hactive)

theorem TrialAwaited.record (ht : s.TrialAwaited) {now : Int}
    (hown : s.OwnOutcome (.record id now success)) :
    TrialAwaited { s with
      breaker := s.breaker.record now success
      now
      recorded := id :: s.recorded } := by
  intro a ha htrial
  have hmem := mem_inFlight.mp ha
  have hne : a.id ≠ id ∧ a.id ∉ s.recorded := by simpa using hmem.2
  have hin : a ∈ s.inFlight := mem_inFlight.mpr ⟨hmem.1, hne.2⟩
  -- the trial in flight is the last one, and so is the one that records
  obtain ⟨hhalf, hlast⟩ := ht a hin htrial
  obtain ⟨b, hb, hid, hbtrial⟩ := hown hhalf
  have hsame := (ht b hb hbtrial).2
  rw [hlast] at hsame
  rw [Option.some.inj hsame] at hne
  exact absurd hid hne.1

/-- As long as only trials record in the half-open state, no two trials are in
flight. -/
theorem one_trial {threshold cooldown t₀ : Int} {calls : List Call}
    (hown : Along step OwnOutcome (start threshold cooldown t₀) calls)
    (h : run step (start threshold cooldown t₀) calls = some s) :
    ∀ a ∈ s.inFlight, ∀ b ∈ s.inFlight,
      a.trial = true → b.trial = true → a = b := by
  have hinv : s.Sane ∧ s.TrialAwaited := by
    refine run_inv (I := fun s => s.Sane ∧ s.TrialAwaited) ?_
      ⟨start_sane threshold cooldown t₀, fun a ha => ?_⟩ hown h
    · intro s c s' hs hown hstep
      refine ⟨hs.1.step hstep, ?_⟩
      obtain ⟨now, _, _, hok, rfl⟩ | ⟨now, _, _, _, rfl⟩ |
        ⟨id, now, success, hc, _, _, rfl⟩ := step_cases hstep
      · exact hs.2.enter hs.1 hok
      · exact hs.2
      · rw [hc] at hown
        exact hs.2.record hown
    · simp [inFlight, start] at ha
  intro a ha b hb hatrial hbtrial
  have hlast := (hinv.2 a ha hatrial).2
  rw [(hinv.2 b hb hbtrial).2] at hlast
  exact (Option.some.inj hlast).symm

/-- A request from before the trial. -/
def overtakenTrial : List Call :=
  [.allow 0, .allow 0, .ofAttempt 0 0 503 (some (.other "503")), .allow 10]

/-- The second request fails too: the breaker reopens, and after another cooldown
it admits a trial beside the first one. -/
theorem two_trials :
    ∃ s, run step (start 1 10 0)
        (overtakenTrial ++ [.ofAttempt 1 10 0 (some (.other "timeout")), .allow 20]) =
        some s ∧
      ∃ a ∈ s.inFlight, ∃ b ∈ s.inFlight,
        a.trial = true ∧ b.trial = true ∧ a ≠ b :=
  ⟨_, rfl, by decide⟩

theorem one_trial_next :
    ∃ s, run step (start 1 10 0)
        (overtakenTrial ++ [.ofAttempt 2 10 0 (some (.other "timeout")), .allow 20]) =
        some s ∧
      ∀ a ∈ s.inFlight, ∀ b ∈ s.inFlight,
        a.trial = true → b.trial = true → a = b := by
  refine ⟨_, rfl, ?_⟩
  have hown : Along step OwnOutcome (start 1 10 0) (overtakenTrial ++
      [.ofAttempt 2 10 0 (some (.other "timeout")), .allow 20]) := by decide
  exact one_trial hown rfl

/-! ### Open for the whole cooldown -/

/-- Nobody records in the open state. -/
def QuietWhileOpen (s : Traffic) : Call → Prop
  | .allow _ => True
  | .record _ _ _ => s.breaker.state ≠ .breakerOpen

instance (s : Traffic) : ∀ c, Decidable (s.QuietWhileOpen c)
  | .allow _ => inferInstanceAs (Decidable True)
  | .record _ _ _ => inferInstanceAs (Decidable (s.breaker.state ≠ .breakerOpen))

theorem open_untouched {b : CircuitBreaker} (hopen : b.state = .breakerOpen)
    (hs : s.breaker = b ∨ b.openedAt + b.cooldown ≤ s.now) (hquiet : s.QuietWhileOpen c)
    (h : s.step c = some s') :
    s'.breaker = b ∨ b.openedAt + b.cooldown ≤ s'.now := by
  cases hs with
  | inr hlate =>
    obtain ⟨now, _, hnow, _, rfl⟩ | ⟨now, _, hnow, _, rfl⟩ |
      ⟨id, now, success, _, hnow, _, rfl⟩ := step_cases h
    · exact .inr (Int.le_trans hlate hnow)
    · exact .inr (Int.le_trans hlate hnow)
    · exact .inr (Int.le_trans hlate hnow)
  | inl hb =>
    obtain ⟨now, _, _, hok, rfl⟩ | ⟨now, _, _, _, rfl⟩ |
      ⟨id, now, success, hc, _, _, rfl⟩ := step_cases h
    · rw [hb] at hok
      exact .inr ((CircuitBreaker.allow_open hopen).mp hok)
    · exact .inl hb
    · rw [hc] at hquiet
      rw [← hb] at hopen
      exact absurd hopen hquiet

theorem opened_at {t : Int} (hclosed : s.breaker.state = .breakerClosed)
    (h : s.step (.record id t success) = some s') (hopen : s'.breaker.state = .breakerOpen) :
    s'.breaker.openedAt = t ∧ s'.breaker.cooldown = s.breaker.cooldown := by
  obtain ⟨_, hc, _⟩ | ⟨_, hc, _⟩ | ⟨i, now, ok, hc, _, _, rfl⟩ := step_cases h
  · simp at hc
  · simp at hc
  · injection hc with _ hnow hok
    subst hnow hok
    show (s.breaker.record t success).openedAt = t ∧
      (s.breaker.record t success).cooldown = s.breaker.cooldown
    have hopen' : (s.breaker.record t success).state = .breakerOpen := hopen
    cases success with
    | true => simp [CircuitBreaker.record] at hopen'
    | false =>
      by_cases hthr : s.breaker.failures + 1 ≥ s.breaker.threshold
      · simp [CircuitBreaker.record, hclosed, hthr]
      · simp [CircuitBreaker.record, hclosed, hthr] at hopen'

/-- A breaker that opens at `t` refuses until `t + cooldown` and admits the next request, as long
as no outcome comes in while it is open. -/
theorem open_for_cooldown {id : Nat} {t : Int} {success : Bool}
    (hclosed : s.breaker.state = .breakerClosed)
    (hopens : s.step (.record id t success) = some s')
    (hopen : s'.breaker.state = .breakerOpen)
    {later : List Call} {m : Traffic}
    (hquiet : Along step QuietWhileOpen s' later)
    (hlater : run step s' later = some m) {now : Int} (hnow : m.now ≤ now) :
    (now < t + s.breaker.cooldown → (m.breaker.allow now).1 = false) ∧
    (t + s.breaker.cooldown ≤ now →
      (∀ b, Call.allow b ∈ later → b < t + s.breaker.cooldown) →
      (m.breaker.allow now).1 = true) := by
  obtain ⟨hat, hcool⟩ := opened_at hclosed hopens hopen
  refine ⟨fun hearly => ?_, fun hlate hfirst => ?_⟩
  · have huntouched : m.breaker = s'.breaker ∨
        s'.breaker.openedAt + s'.breaker.cooldown ≤ m.now :=
      run_inv (fun _ _ _ hs hq hstep => open_untouched hopen hs hq hstep)
        (.inl rfl) hquiet hlater
    rw [hat, hcool] at huntouched
    cases huntouched with
    | inr hover => omega
    | inl hb =>
      rw [hb]
      cases hok : (s'.breaker.allow now).1 with
      | false => rfl
      | true =>
        have hle := (CircuitBreaker.allow_open hopen).mp hok
        rw [hat, hcool] at hle
        omega
  · have hsame : m.breaker = s'.breaker := by
      refine run_inv (I := fun s => s.breaker = s'.breaker) ?_ rfl
        (hquiet.and_mem (P := fun c => ∀ b, c = .allow b → b < t + s.breaker.cooldown)
          fun c hc b hb => hfirst b (hb ▸ hc)) hlater
      intro p c p' hp hC hstep
      obtain ⟨now, hc, _, hok, rfl⟩ | ⟨now, _, _, _, rfl⟩ |
        ⟨id, now, success, hc, _, _, rfl⟩ := step_cases hstep
      · rw [hp, CircuitBreaker.allow_open hopen, hat, hcool] at hok
        have hbefore := hC.2 now hc
        omega
      · exact hp
      · have hq := hC.1
        rw [hc] at hq
        exact absurd (by rw [hp]; exact hopen) hq
    rw [hsame, CircuitBreaker.allow_open hopen, hat, hcool]
    exact hlate

theorem open_for_cooldown_ten :
    ((start 1 10 0).enter 0).step (.record 0 0 false) = some justOpened ∧
      justOpened.step (.allow 9) = some { justOpened with now := 9 } ∧
      (justOpened.breaker.allow 9).1 = false ∧
      (justOpened.breaker.allow 10).1 = true := by
  have hopens : ((start 1 10 0).enter 0).step (.record 0 0 false) = some justOpened := rfl
  have hquiet : Along step QuietWhileOpen justOpened [.allow 9] := by decide
  refine ⟨hopens, rfl, ?_, ?_⟩
  · have hnone : Along step QuietWhileOpen justOpened [] := trivial
    have hnow : justOpened.now ≤ 9 := by decide
    exact (open_for_cooldown rfl hopens rfl hnone rfl hnow).1 (by decide)
  · have hlater : run step justOpened [.allow 9] = some { justOpened with now := 9 } := rfl
    have hnow : ({ justOpened with now := 9 } : Traffic).now ≤ 10 := by decide
    exact (open_for_cooldown rfl hopens rfl hquiet hlater hnow).2 (by decide)
      fun b hb => by
        have hnine : b = 9 := by simpa using hb
        subst hnine
        decide

/-- A request under way when the breaker opened at 0 succeeds at 3; the one at 4 is admitted
although the cooldown lasts until 10. -/
theorem admitted_early :
    ∃ s s' m, run step (start 1 10 0) [.allow 0, .allow 0] = some s ∧
      s.breaker.state = .breakerClosed ∧
      s.step (.ofAttempt 0 0 503 (some (.other "503"))) = some s' ∧
      s'.breaker.state = .breakerOpen ∧
      run step s' [.ofAttempt 1 3 200 none] = some m ∧
      4 < 0 + s.breaker.cooldown ∧ (m.breaker.allow 4).1 = true :=
  ⟨_, _, _, rfl, rfl, rfl, rfl, rfl, by decide, by decide⟩

end Traffic

end Microjet.Httpx
