import Microjet.Proofs.HostOnce
import Microjet.Proofs.HostShutdown

/-!
# Close

There is one goroutine that closes the services, and it closes what is under a key at most once.
A `Start` that fails calls `Close` and waits for it; unless something had called it before, it
comes to everything that was there (`Closing.Covers`), or `close` returns at its timeout.
-/

namespace Microjet.Host

open Errorx

variable {K I H W : Type}

/-- The key has been closed or will be. -/
def Closing.Covers (load : K → Option I) (log : List (Note K I H W)) (k : K) (i : I) :
    Closing K I → Prop
  | .fresh => False
  | .spawned => load k = some i
  | .collecting todo entries => k ∈ todo ∧ load k = some i ∨ (k, i) ∈ entries
  | .closing todo _ => (k, i) ∈ todo ∨ .called .close k i ∈ log
  | .finished => .called .close k i ∈ log

theorem Closing.Covers.note {load : K → Option I} {log : List (Note K I H W)} {k : K} {i : I}
    {c : Closing K I} {n : Note K I H W} (h : c.Covers load log k i) :
    c.Covers load (n :: log) k i := by
  cases c with
  | closing => exact h.imp_right (List.mem_cons_of_mem n)
  | finished => exact List.mem_cons_of_mem n h
  | _ => exact h

theorem Closing.Covers.load {load load' : K → Option I} {log : List (Note K I H W)} {k : K} {i : I}
    {c : Closing K I} (h : c.Covers load log k i) (hk : load' k = load k) :
    c.Covers load' log k i := by
  cases c with
  | spawned => exact hk.trans h
  | collecting => exact h.imp_left fun h => ⟨h.1, hk.trans h.2⟩
  | _ => exact h

theorem Closing.enter_of_ne {c : Closing K I} (h : c ≠ .fresh) : c.enter = c := by
  cases c with
  | fresh => exact absurd rfl h
  | _ => rfl

theorem Starting.enter_of_begun {c : Starting K I H W} (h : c.begun = true) : c.enter = c := by
  cases c with
  | fresh => cases h
  | _ => rfl

theorem Starting.Failed.begun {err : Err} {c : Starting K I H W} (h : c.Failed err) :
    c.begun = true := by
  rcases h with rfl | rfl <;> rfl

/-- No worker before they are launched. -/
def Starting.Unlaunched (log : List (Note K I H W)) (c : Starting K I H W) : Prop :=
  c.launched = false → ∀ w, .launched w ∉ log

theorem Starting.Unlaunched.note {c : Starting K I H W} {log : List (Note K I H W)}
    {n : Note K I H W} (h : c.Unlaunched log) (hn : ∀ w, n ≠ .launched w) :
    c.Unlaunched (n :: log) := by
  intro hc w hw
  rcases List.mem_cons.mp hw with hw | hw
  · exact hn w hw.symm
  · exact h hc w hw

/-- A call of `Close` or `Shutdown`. -/
def Event.stops : Event K I H W → Bool
  | .act _ (.call .close) => true
  | .act _ (.call .shutdown) => true
  | _ => false

namespace Runtime

section

variable {svc : I → Service} {s s' : Runtime K I H W} {c : Closing K I} {k : K} {i : I}

theorem CloseMoves.covers (hhas : (svc i).has .close = true)
    (hs : c.Covers s.app.container.load s.log k i) (h : CloseMoves svc s c s') :
    s'.close.Covers s'.app.container.load s'.log k i := by
  cases h with
  | snapshot =>
    have hload : s.app.container.load k = some i := hs
    exact .inl ⟨(s.app.container.mem_keys k).mpr (by rw [hload]; rfl), hload⟩
  | gone hnone =>
    refine hs.imp_left fun ⟨hmem, hload⟩ => ⟨?_, hload⟩
    rcases List.mem_cons.mp hmem with rfl | hmem
    · cases hnone.symm.trans hload
    · exact hmem
  | collect hj =>
    rcases hs with ⟨hmem, hload⟩ | hmem
    · rcases List.mem_cons.mp hmem with rfl | hmem
      · cases hj.symm.trans hload
        exact .inr (List.mem_append_right _ List.mem_cons_self)
      · exact .inl ⟨hmem, hload⟩
    · exact .inr (List.mem_append_left _ hmem)
  | sort =>
    rcases hs with ⟨hmem, -⟩ | hmem
    · cases hmem
    · exact .inl ((closeSequence_perm svc _).mem_iff.mpr hmem)
  | skipClose hnot =>
    refine hs.imp_left fun hmem => ?_
    rcases List.mem_cons.mp hmem with heq | hmem
    · cases heq
      cases hhas.symm.trans hnot
    · exact hmem
  | callClose =>
    rcases hs with hmem | hcalled
    · rcases List.mem_cons.mp hmem with heq | hmem
      · cases heq
        exact .inr List.mem_cons_self
      · exact .inl hmem
    · exact .inr (List.mem_cons_of_mem _ hcalled)
  | closeReturned => exact hs.imp_right (List.mem_cons_of_mem _)
  | finish => exact hs.resolve_left List.not_mem_nil

theorem CloseMoves.log (h : CloseMoves svc s c s') :
    ∃ notes, s'.log = notes ++ s.log ∧ ∀ n ∈ notes, n.ofStart = false := by
  cases h with
  | callClose | closeReturned =>
    refine ⟨[_], rfl, fun n hn => ?_⟩
    cases List.mem_singleton.mp hn
    rfl
  | _ => exact ⟨[], rfl, nofun⟩

theorem CloseMoves.frame (h : CloseMoves svc s c s') :
    s'.start = s.start ∧ s'.closed = s.closed ∧ s'.close ≠ .fresh ∧ c ≠ .finished := by
  cases h <;> exact ⟨rfl, rfl, nofun, nofun⟩

end

/-- What holds after the failure. -/
structure After (svc : I → Service) (load : K → Option I) (err : Err)
    (newer : List (Note K I H W)) (s : Runtime K I H W) : Prop where
  quiet : ∀ n ∈ newer, n.ofStart = false
  failed : s.start.Failed err
  done : s.start = .done (some err) → s.closed.isSome = true
  begun : s.close ≠ .fresh
  closed : s.closed = some false → s.close = .finished
  covers : ∀ k i, load k = some i → (svc i).has .close = true →
    s.close.Covers s.app.container.load s.log k i ∨ ∃ j, .provided k j ∈ newer

section

variable {svc : I → Service} {load : K → Option I} {err : Err} {newer : List (Note K I H W)}
  {s s' : Runtime K I H W}

theorem CloseMoves.after {c : Closing K I} (hs : s.After svc load err newer) (hc : s.close = c)
    (h : CloseMoves svc s c s') :
    ∃ notes, s'.log = notes ++ s.log ∧ s'.After svc load err (notes ++ newer) := by
  obtain ⟨notes, hlog, hquiet⟩ := h.log
  obtain ⟨hstart, hclosed, hbegun, hfin⟩ := h.frame
  refine ⟨notes, hlog, fun n hn => ?_, hstart ▸ hs.failed, ?_, hbegun, fun hf => ?_,
    fun k i hk hhas => ?_⟩
  · exact (List.mem_append.mp hn).elim (hquiet n) (hs.quiet n)
  · rw [hstart, hclosed]
    exact hs.done
  · exact absurd (hc.symm.trans (hs.closed (hclosed ▸ hf))) hfin
  · rcases hs.covers k i hk hhas with hcov | ⟨j, hj⟩
    · exact .inl (h.covers hhas (hc ▸ hcov))
    · exact .inr ⟨j, List.mem_append_right notes hj⟩

theorem covers_notes {notes : List (Note K I H W)} {k : K} {i : I} {c : Closing K I}
    (h : c.Covers load s.log k i) : c.Covers load (notes ++ s.log) k i := by
  induction notes with
  | nil => exact h
  | cons n notes ih => exact ih.note

theorem After.frame (notes : List (Note K I H W)) (hs : s.After svc load err newer)
    (hquiet : ∀ n ∈ notes, n.ofStart = false) (hstart : s'.start = s.start)
    (hclose : s'.close = s.close) (hclosed : s'.closed = s.closed)
    (hload : ∀ k, s'.app.container.load k = s.app.container.load k ∨ ∃ j, .provided k j ∈ notes)
    (hlog : s'.log = notes ++ s.log) :
    ∃ notes, s'.log = notes ++ s.log ∧ s'.After svc load err (notes ++ newer) := by
  refine ⟨notes, hlog, fun n hn => (List.mem_append.mp hn).elim (hquiet n) (hs.quiet n),
    hstart ▸ hs.failed, ?_, hclose ▸ hs.begun, ?_, fun k i hk hhas => ?_⟩
  · rw [hstart, hclosed]
    exact hs.done
  · rw [hclose, hclosed]
    exact hs.closed
  · rw [hclose, hlog]
    rcases hs.covers k i hk hhas with hcov | ⟨j, hj⟩
    · rcases hload k with hsame | ⟨j, hj⟩
      · exact .inl (covers_notes hcov |>.load hsame)
      · exact .inr ⟨j, List.mem_append_left newer hj⟩
    · exact .inr ⟨j, List.mem_append_right notes hj⟩

variable [DecidableEq K] [DecidableEq I] [DecidableEq W] {e : Event K I H W}

theorem After.step (hs : s.After svc load err newer) (h : s.step svc e = some s') :
    ∃ notes, s'.log = notes ++ s.log ∧ s'.After svc load err (notes ++ newer) := by
  have hquiet : ∀ n : Note K I H W, n.ofStart = false → ∀ m ∈ [n], m.ofStart = false :=
    fun n hn m hm => List.mem_singleton.mp hm ▸ hn
  have hclose : s.close.enter = s.close := Closing.enter_of_ne hs.begun
  cases moves h with
  | start hc hstack h =>
    have hfailed := hs.failed
    rw [hc] at hfailed
    rcases hfailed with rfl | rfl <;> cases h
    next hcl =>
      exact ⟨[], rfl, hs.quiet, .inr rfl, fun _ => hcl, hs.begun, hs.closed, hs.covers⟩
  | close he hc h => exact h.after hs hc
  | @provide t k i =>
    refine hs.frame [.provided k i] (hquiet _ rfl) rfl rfl rfl (fun j => ?_) rfl
    by_cases hjk : j = k
    · exact .inr ⟨i, hjk ▸ List.mem_cons_self⟩
    · exact .inl ((Container.load_storeKey _ _ _ _).trans (if_neg hjk))
  | call e =>
    cases e with
    | start =>
      exact hs.frame [] nofun (Starting.enter_of_begun hs.failed.begun) rfl rfl
        (fun _ => .inl rfl) rfl
    | close => exact hs.frame [] nofun rfl hclose rfl (fun _ => .inl rfl) rfl
    | _ => exact hs.frame [] nofun rfl rfl rfl (fun _ => .inl rfl) rfl
  | @closed timedOut hn hb =>
    refine ⟨[], rfl, hs.quiet, hs.failed, fun _ => rfl, hs.begun, fun hf => ?_, hs.covers⟩
    cases hf
    show s.close = .finished
    cases hc : s.close <;> rw [hc] at hb <;> first | rfl | cases hb
  | waited | expire => exact hs.frame [] nofun rfl hclose rfl (fun _ => .inl rfl) rfl
  | handlerReturned | handlerFailed | handler | answered =>
    exact hs.frame [_] (hquiet _ rfl) rfl rfl rfl (fun _ => .inl rfl) rfl
  | _ => exact hs.frame [] nofun rfl rfl rfl (fun _ => .inl rfl) rfl

theorem After.run {es : List (Event K I H W)} (hs : s.After svc load err newer)
    (h : Trace.run (Runtime.step svc) s es = some s') :
    ∃ notes, s'.log = notes ++ s.log ∧ s'.After svc load err (notes ++ newer) := by
  induction es generalizing s newer with
  | nil =>
    cases h
    exact ⟨[], rfl, hs⟩
  | cons e es ih =>
    obtain ⟨m, hm, hrest⟩ := Trace.run_cons.mp h
    obtain ⟨notes, hlog, hs⟩ := hs.step hm
    obtain ⟨notes', hlog', hs⟩ := ih hs hrest
    exact ⟨notes' ++ notes, by rw [hlog', hlog, List.append_assoc],
      by rw [List.append_assoc]; exact hs⟩

/-! ### Before the failure -/

/-- Nothing has stopped the app. -/
structure Unstopped (s : Runtime K I H W) : Prop where
  shutdown : s.shutdown = .fresh
  close : s.start.ended = false → s.close = .fresh
  closed : s.close = .fresh → s.closed = none

omit [DecidableEq W] in
theorem StartMoves.unstopped {c : Starting K I H W} (hs : s.Unstopped) (hc : s.start = c)
    (h : StartMoves svc s c s') : s'.Unstopped := by
  have hopen : c.ended = false → s.close = .fresh := fun ho => hs.close (hc ▸ ho)
  cases h with
  | refused | initFailed | setupFailed | handlerFailed | startFailed =>
    refine ⟨hs.shutdown, nofun, fun hx => ?_⟩
    have hx : s.close.enter = .fresh := hx
    rw [hopen rfl] at hx
    cases hx
  | fail => exact ⟨hs.shutdown, nofun, hs.closed⟩
  | _ => exact ⟨hs.shutdown, fun _ => hopen rfl, hs.closed⟩

theorem Unstopped.step (hs : s.Unstopped) (he : e.stops = false) (h : s.step svc e = some s') :
    s'.Unstopped := by
  cases moves h with
  | start hc hstack h => exact h.unstopped hs hc
  | close hne hc h =>
    obtain ⟨hstart, hclosed, hbegun, -⟩ := h.frame
    have hshut : s'.shutdown = s.shutdown := by cases h <;> rfl
    refine ⟨hshut.trans hs.shutdown, fun ho => ?_, fun hf => absurd hf hbegun⟩
    have hfresh := hs.close (hstart ▸ ho)
    rw [hc] at hfresh
    subst hfresh
    cases h
  | call e =>
    cases e with
    | start =>
      refine ⟨hs.shutdown, fun ho => hs.close ?_, hs.closed⟩
      have ho : s.start.enter.ended = false := ho
      cases hc : s.start <;> rw [hc] at ho <;> first | rfl | cases ho
    | wait => exact ⟨hs.shutdown, hs.close, hs.closed⟩
    | shutdown | close => cases he
  | closed hn hb =>
    refine ⟨hs.shutdown, hs.close, fun hf => ?_⟩
    have hf : s.close = .fresh := hf
    rw [hf] at hb
    cases hb
  | cancel hd | waited hd | shut hd | expire hd => cases hs.shutdown.symm.trans hd
  | _ => exact ⟨hs.shutdown, hs.close, hs.closed⟩

theorem close_of_failing (h : s.step svc e = some s') (h0 : s.start.ended = false)
    (h1 : s'.start = .failing err) :
    s'.close = s.close.enter ∧ s'.closed = s.closed := by
  have hnot : s.start ≠ .failing err := by
    intro hc
    rw [hc] at h0
    cases h0
  cases moves h with
  | start hc hstack h =>
    cases h with
    | refused | initFailed | setupFailed | handlerFailed | startFailed => exact ⟨rfl, rfl⟩
    | _ => cases h1
  | close he hc h => exact absurd (h.frame.1.symm.trans h1) hnot
  | call e =>
    cases e with
    | start =>
      have h1 : s.start.enter = .failing err := h1
      cases hc : s.start with
      | failing => exact absurd (hc ▸ h1 : s.start = .failing err) hnot
      | _ => rw [hc] at h1; cases h1
    | _ => exact absurd h1 hnot
  | _ => exact absurd h1 hnot

omit [DecidableEq W] in
theorem StartMoves.unlaunched {c : Starting K I H W} (hs : c.Unlaunched s.log)
    (h : StartMoves svc s c s') : s'.start.Unlaunched s'.log := by
  cases h with
  | launch | launchService | endLaunch | gather | endGather | endLaunchServices | merge | endStart
  | endDrainSkip => exact nofun
  | callInit =>
    exact (hs.note (n := .visited _ _ _ _) nofun).note nofun
  | visit | initReturned | initFailed | callSetup | setupReturned | setupFailed | handler
  | handlerReturned | handlerFailed | callStart | startReturned | startFailed =>
    exact hs.note nofun
  | _ => exact hs

theorem unlaunched_step (hs : s.start.Unlaunched s.log) (h : s.step svc e = some s') :
    s'.start.Unlaunched s'.log := by
  cases moves h with
  | start hc hstack h =>
    subst hc
    exact h.unlaunched hs
  | close he hc h =>
    cases h with
    | callClose | closeReturned => exact hs.note nofun
    | _ => exact hs
  | call e =>
    cases e with
    | start =>
      intro hl
      have hl : s.start.enter.launched = false := hl
      refine hs ?_
      cases hc : s.start <;> rw [hc] at hl <;> first | rfl | exact hl
    | _ => exact hs
  | provide | handlerReturned | handlerFailed | handler | answered => exact hs.note nofun
  | _ => exact hs

end

/-- A `Start` that has failed and closed everything. -/
structure FailedStart (svc : I → Service) (s₂ : Runtime K I H W) (err : Err)
    (s : Runtime K I H W) : Prop where
  unlaunched : ∀ w, .launched w ∉ s.log
  same : ∀ r, .answered .start r ∈ s.log → r = some err
  /-- Only hooks of `Close` are called; when `Start` has returned, `close` has timed out or the
  entries have been closed, unless replaced. -/
  since : ∃ newer, s.log = newer ++ s₂.log ∧ (∀ n ∈ newer, n.ofStart = false) ∧
    ((∃ r, .answered .start r ∈ s.log) → s.closed = some true ∨
      ∀ k i, s₂.app.container.load k = some i → (svc i).has .close = true →
        .called .close k i ∈ s.log ∨ ∃ j, .provided k j ∈ newer)

section

variable [DecidableEq K] [DecidableEq I] [DecidableEq W] {svc : I → Service}
  {s₁ s₂ s : Runtime K I H W} {e : Event K I H W} {err : Err}

theorem after_failing (hs : s₁.Unstopped) (h : s₁.step svc e = some s₂)
    (h0 : s₁.start.ended = false) (h1 : s₂.start = .failing err) :
    s₂.After svc s₂.app.container.load err [] := by
  obtain ⟨hclose, hclosed⟩ := close_of_failing h h0 h1
  have hfresh := hs.close h0
  rw [hfresh] at hclose
  refine ⟨nofun, .inl h1, fun hd => ?_, fun hf => ?_, fun hf => ?_, fun k i hk _ => .inl ?_⟩
  · rw [h1] at hd
    cases hd
  · cases hclose.symm.trans hf
  · rw [hclosed, hs.closed hfresh] at hf
    cases hf
  · rw [hclose]
    exact hk

/-- What is under a key is closed at most once; and a `Start` that fails when neither `Close` nor
`Shutdown` has been called leaves nothing running. -/
theorem close_once_and_failed_start (svc : I → Service) (es : List (Event K I H W))
    (s : Runtime K I H W) (h : Trace.run (step svc) {} es = some s) :
    (calledKeys .close s.log).Nodup ∧
      ∀ es₁ e es₂ s₁ s₂ err, es = es₁ ++ e :: es₂ → Trace.run (step svc) {} es₁ = some s₁ →
        s₁.step svc e = some s₂ → s₁.start.ended = false → s₂.start = .failing err →
        (∀ x ∈ es₁, x.stops = false) → FailedStart svc s₂ err s := by
  have halong : Trace.Along (step svc) (fun _ _ => True) {} es :=
    Trace.along_of_forall (fun _ _ => trivial) _ _
  obtain ⟨honce, hcourse, hun⟩ := Trace.run_inv
    (I := fun s : Runtime K I H W =>
      s.OnceInv ∧ s.start.Course s.log ∧ s.start.Unlaunched s.log)
    (fun s e s' hs _ h => ⟨hs.1.step h, course_step hs.2.1 h, unlaunched_step hs.2.2 h⟩)
    ⟨onceInv_init, course_init, fun _ => nofun⟩ halong h
  refine ⟨honce.nodup .close, fun es₁ e es₂ s₁ s₂ err hes h₁ he h0 hfail hno => ?_⟩
  have hstop : s₁.Unstopped := Trace.run_inv (fun s e s' hs he h => hs.step he.2 h)
    ⟨rfl, fun _ => rfl, fun _ => rfl⟩
    ((Trace.along_of_forall (C := fun _ _ => True) (fun _ _ => trivial) _ es₁).and_mem hno) h₁
  subst hes
  obtain ⟨m, hm, hrest⟩ := Trace.run_append.mp h
  cases h₁.symm.trans hm
  obtain ⟨m, hm, hrest⟩ := Trace.run_cons.mp hrest
  cases he.symm.trans hm
  obtain ⟨notes, hlog, hafter⟩ := (after_failing hstop he h0 hfail).run hrest
  rw [List.append_nil] at hafter
  have hsame : ∀ r, .answered .start r ∈ s.log → r = some err := fun r hr => by
    have hfailed := hafter.failed
    rw [hcourse.answered r hr] at hfailed
    rcases hfailed with hf | hf <;> cases hf
    rfl
  refine ⟨hun ?_, hsame, notes, hlog, hafter.quiet, fun ⟨r, hr⟩ => ?_⟩
  · rcases hafter.failed with hf | hf <;> rw [hf] <;> rfl
  · have hdone : s.start = .done (some err) := hsame r hr ▸ hcourse.answered r hr
    obtain ⟨b, hb⟩ := Option.isSome_iff_exists.mp (hafter.done hdone)
    cases b with
    | true => exact .inl hb
    | false =>
      refine .inr fun k i hk hhas => (hafter.covers k i hk hhas).imp_left fun hcov => ?_
      rw [hafter.closed hb] at hcov
      exact hcov

end

def initRunning : List (Event Nat Nat Nat Nat) :=
  [ .act (.caller 0) (.provide 0 7), .act (.caller 0) (.call .start), .go .start, .go .start,
    .go .start, .go .start ]

def afterFailure : List (Event Nat Nat Nat Nat) :=
  [ .go .close, .go .close, .go .close, .go .close, .act .close (.ret none), .go .close,
    .closed false, .go .start, .go (.caller 0), .act (.caller 0) (.call .start), .go (.caller 0),
    .act (.caller 1) (.call .close), .go (.caller 1), .act (.caller 1) (.call .shutdown),
    .shutdown, .shutdown, .shutdown, .go (.caller 1) ]

theorem close_after_failing_init :
    ∃ s₁ s₂ s, Trace.run (step fun _ => { initer := true, closer := true }) {} initRunning =
        some s₁ ∧
      s₁.step (fun _ => { initer := true, closer := true })
        (.act .start (.ret (some (.other "dial")))) = some s₂ ∧
      Trace.run (step fun _ => { initer := true, closer := true }) {}
        (initRunning ++ .act .start (.ret (some (.other "dial"))) :: afterFailure) = some s ∧
      .called .close 0 7 ∈ s.log ∧ (calledKeys .close s.log).Nodup ∧
      FailedStart (fun _ => { initer := true, closer := true }) s₂
        (phaseError "initializing services" (.other "dial")) s := by
  have hbefore : (Trace.run (step fun _ => { initer := true, closer := true }) {}
      initRunning).map (fun s => s.start.ended) = some false := by decide
  obtain ⟨s₁, h₁, h0⟩ := Option.map_eq_some_iff.mp hbefore
  have hfailing : (Trace.run (step fun _ => { initer := true, closer := true }) {}
      (initRunning ++ [.act .start (.ret (some (.other "dial")))])).map (fun s => s.start) =
      some (.failing (phaseError "initializing services" (.other "dial"))) := rfl
  obtain ⟨s₂, h₂, hfail⟩ := Option.map_eq_some_iff.mp hfailing
  obtain ⟨m, hm, he⟩ := Trace.run_snoc.mp h₂
  cases h₁.symm.trans hm
  have hall : (Trace.run (step fun _ => { initer := true, closer := true }) {}
      (initRunning ++ .act .start (.ret (some (.other "dial"))) :: afterFailure)).map
      (fun s => decide (.called .close 0 7 ∈ s.log)) = some true := by decide
  obtain ⟨s, hs, hmem⟩ := Option.map_eq_some_iff.mp hall
  obtain ⟨honce, hstart⟩ := close_once_and_failed_start _ _ s hs
  exact ⟨s₁, s₂, s, h₁, he, hs, of_decide_eq_true hmem, honce,
    hstart _ _ _ s₁ s₂ _ rfl h₁ he h0 hfail (by decide)⟩

end Runtime

end Microjet.Host
