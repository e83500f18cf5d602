import Microjet.Proofs.HostFailure

/-!
# Shutdown

`Shutdown` reads `workerCancel` and `workerWg` once. If `Start` has not set them by then, there
is nothing to wait for, and nothing tells `Start` that the app has been shut down. If `Start` is
over by then, or is never called afterwards (`InTurn`), all workers are gone when `Shutdown`
returns and nothing starts again.
-/

namespace Microjet.Host

open Errorx

variable {K I H W : Type}

/-- `Start` is not running. -/
def Starting.still : Starting K I H W → Bool
  | .fresh => true
  | .failing _ => true
  | .done _ => true
  | _ => false

/-- `Start` was called. -/
def Starting.begun : Starting K I H W → Bool
  | .fresh => false
  | _ => true

/-- Workers may have been launched. -/
def Starting.launched : Starting K I H W → Bool
  | .launching _ => true
  | .gathering _ _ => true
  | .launchingServices _ => true
  | .merging => true
  | .done none => true
  | _ => false

/-- All have been. -/
def Starting.merged : Starting K I H W → Bool
  | .merging => true
  | .done none => true
  | _ => false

/-- `workerCancel` was called. -/
def ShuttingDown.cancelled : ShuttingDown → Bool
  | .fresh => false
  | .draining => false
  | _ => true

/-- `workerWg` was waited for. -/
def ShuttingDown.waited : ShuttingDown → Bool
  | .closing _ => true
  | .done _ => true
  | _ => false

theorem ShuttingDown.cancelled_of_waited {d : ShuttingDown} (h : d.waited = true) :
    d.cancelled = true := by
  cases d <;> first | rfl | cases h

/-- Nothing is called or launched after `Shutdown` has returned. -/
def QuietAfter (n : Note K I H W) (older : List (Note K I H W)) : Prop :=
  n.ofStart = true → ∀ err, .answered .shutdown err ∉ older

/-- What the shutdown knows of the workers. -/
structure Stopping (c : Starting K I H W) (live : List (Worker I W)) (workerWg : Bool)
    (d : ShuttingDown) (log : List (Note K I H W)) : Prop where
  unlaunched : c.launched = false → live = []
  merged : c.merged = true → workerWg = true
  still : d.cancelled = true → c.still = true
  gone : d.waited = true → live = []
  answered : ∀ err, .answered .shutdown err ∈ log → d = .done err
  quiet : Log.Each QuietAfter log

namespace Stopping

variable {c c' : Starting K I H W} {live live' : List (Worker I W)} {workerWg workerWg' : Bool}
  {d : ShuttingDown} {log : List (Note K I H W)} {n : Note K I H W}

section

variable (h : Stopping c live workerWg d log)

include h

theorem running (hc : c.still = false) :
    d.cancelled = false ∧ ∀ err, .answered .shutdown err ∉ log := by
  have hd : d.cancelled = false := by
    cases hd : d.cancelled with
    | false => rfl
    | true => cases hc.symm.trans (h.still hd)
  refine ⟨hd, fun err hm => ?_⟩
  rw [h.answered err hm] at hd
  cases hd

theorem move (hc : c.still = false)
    (hl : c'.launched = false → live' = []) (hm : c'.merged = true → workerWg' = true) :
    Stopping c' live' workerWg' d log := by
  obtain ⟨hd, hno⟩ := h.running hc
  refine ⟨hl, hm, fun hx => ?_, fun hx => ?_, h.answered, h.quiet⟩
  · cases hd.symm.trans hx
  · cases hd.symm.trans (ShuttingDown.cancelled_of_waited hx)

theorem go (hc : c.still = false)
    (hn : ∀ err, n ≠ .answered .shutdown err) (hl : c'.launched = false → live' = [])
    (hm : c'.merged = true → workerWg' = true) : Stopping c' live' workerWg' d (n :: log) := by
  obtain ⟨hl, hm, hstill, hgone, -, hquiet⟩ := h.move hc hl hm
  obtain ⟨-, hno⟩ := h.running hc
  refine ⟨hl, hm, hstill, hgone, fun err hmem => ?_, fun _ => hno, hquiet⟩
  rcases List.mem_cons.mp hmem with hmem | hmem
  · exact absurd hmem.symm (hn err)
  · exact absurd hmem (hno err)

theorem note (hs : n.ofStart = false) (hn : ∀ err, n = .answered .shutdown err → d = .done err) :
    Stopping c live workerWg d (n :: log) where
  unlaunched := h.unlaunched
  merged := h.merged
  still := h.still
  gone := h.gone
  answered := fun err hm => by
    rcases List.mem_cons.mp hm with hm | hm
    · exact hn err hm.symm
    · exact h.answered err hm
  quiet := by
    refine ⟨fun hx => ?_, h.quiet⟩
    rw [hs] at hx
    cases hx

theorem advance {d' : ShuttingDown}
    (hd : ∀ err, d ≠ .done err) (hstill : d'.cancelled = true → c.still = true)
    (hgone : d'.waited = true → live = []) : Stopping c live workerWg d' log where
  unlaunched := h.unlaunched
  merged := h.merged
  still := hstill
  gone := hgone
  answered := fun err hm => absurd (h.answered err hm) (hd err)
  quiet := h.quiet

end

theorem unwaited (h : Stopping c live false d log) (hc : c.still = true) : live = [] := by
  cases c with
  | fresh | failing => exact h.unlaunched rfl
  | done err =>
    cases err with
    | none => cases h.merged rfl
    | some err => exact h.unlaunched rfl
  | _ => cases hc

theorem enterStart (h : Stopping c live workerWg d log)
    (hC : c.begun = true ∨ d.cancelled = false) : Stopping c.enter live workerWg d log := by
  cases c with
  | fresh =>
    refine ⟨fun _ => h.unlaunched rfl, nofun, fun hd => ?_, h.gone, h.answered, h.quiet⟩
    cases hd.symm.trans (hC.resolve_left nofun)
  | _ => exact h

theorem enterShutdown (h : Stopping c live workerWg d log) :
    Stopping c live workerWg d.enter log := by
  cases d with
  | fresh => exact h.advance nofun nofun nofun
  | _ => exact h

end Stopping

namespace Runtime

/-- `Start` is over when `Shutdown` reads what it has set, or is not called after that; and
`Shutdown` is not cut short. -/
def InTurn (s : Runtime K I H W) : Event K I H W → Prop
  | .shutdown => s.shutdown = .draining → s.start.still = true
  | .act _ (.call .start) => s.start.begun = true ∨ s.shutdown.cancelled = false
  | .expire _ => False
  | _ => True

instance decidableInTurn (s : Runtime K I H W) : (e : Event K I H W) → Decidable (s.InTurn e)
  | .shutdown => inferInstanceAs (Decidable (_ → _))
  | .act _ (.call .start) => inferInstanceAs (Decidable (_ ∨ _))
  | .expire _ => .isFalse id
  | .act _ (.call .wait) | .act _ (.call .shutdown) | .act _ (.call .close)
  | .act _ (.provide _ _) | .act _ (.setup _) | .act _ (.withWorker _) | .act _ (.fail _)
  | .act _ (.ret _) | .go _ | .closed _ | .workerDone | .shutdownCh | .fatal _ | .exit _
  | .ctxDone => .isTrue trivial

/-- The invariant. -/
abbrev StopInv (s : Runtime K I H W) : Prop :=
  Stopping s.start s.live s.app.workerWg s.shutdown s.log

section

variable [DecidableEq K] [DecidableEq I] {svc : I → Service} {s s' : Runtime K I H W}
  {c : Starting K I H W}

theorem StartMoves.stopping (hs : Stopping c s.live s.app.workerWg s.shutdown s.log)
    (h : StartMoves svc s c s') : s'.StopInv := by
  cases h with
  | fail hclosed =>
    exact ⟨fun _ => hs.unlaunched rfl, nofun, fun _ => rfl, hs.gone, hs.answered, hs.quiet⟩
  | callInit =>
    exact (hs.note (n := .visited _ _ _ _) rfl nofun).go rfl nofun hs.unlaunched nofun
  | launch | launchService => exact hs.go rfl nofun nofun nofun
  | endLaunch | gather | endGather => exact hs.move rfl nofun nofun
  | endLaunchServices => exact hs.move rfl nofun fun _ => rfl
  | merge => exact hs.move rfl nofun hs.merged
  | endStart | endDrainSkip => exact hs.move rfl nofun nofun
  | visit | initReturned | initFailed | callSetup | setupReturned | setupFailed | handler
  | handlerReturned | handlerFailed | callStart | startReturned | startFailed =>
    exact hs.go rfl nofun hs.unlaunched nofun
  | _ => exact hs.move rfl hs.unlaunched nofun

omit [DecidableEq K] [DecidableEq I] in
theorem answer_shutdown {err : Option Err} (h : s.answer .shutdown = some err) :
    s.shutdown = .done err := by
  simp only [answer] at h
  split at h
  next hc =>
    cases h
    exact hc
  next => cases h

theorem StopInv.step [DecidableEq W] {e : Event K I H W} (hs : s.StopInv) (hC : s.InTurn e)
    (h : s.step svc e = some s') : s'.StopInv := by
  cases moves h with
  | start hc hstack h =>
    subst hc
    exact h.stopping hs
  | close he hc h =>
    cases h with
    | callClose | closeReturned => exact hs.note rfl nofun
    | _ => exact hs
  | call e =>
    cases e with
    | start => exact hs.enterStart hC
    | shutdown => exact hs.enterShutdown
    | _ => exact hs
  | cancel hd =>
    exact hs.advance (by rw [hd]; nofun) (fun _ => hC hd) nofun
  | waited hd hw =>
    have hstill : s.start.still = true := hs.still (by rw [hd]; rfl)
    refine hs.advance (by rw [hd]; nofun) (fun _ => hstill) fun _ => ?_
    rcases hw with hw | hw
    · exact (hw ▸ hs : Stopping s.start s.live false s.shutdown s.log).unwaited hstill
    · exact hw
  | shut hd =>
    exact hs.advance (by rw [hd]; nofun) (fun _ => hs.still (by rw [hd]; rfl))
      fun _ => hs.gone (by rw [hd]; rfl)
  | expire => exact hC.elim
  | exit hw =>
    refine ⟨fun hl => ?_, hs.merged, hs.still, fun hd => ?_, hs.answered, hs.quiet⟩
    · rw [hs.unlaunched hl] at hw
      cases hw
    · rw [hs.gone hd] at hw
      cases hw
  | answered htop ha =>
    refine hs.note rfl fun err herr => ?_
    cases herr
    exact answer_shutdown ha
  | provide | handlerReturned | handlerFailed | handler => exact hs.note rfl nofun
  | _ => exact hs

/-- Where `Start` and `Shutdown` come in turn, no worker is running once `Shutdown` has returned,
and nothing is launched or started after that. -/
theorem nothing_runs_after_shutdown [DecidableEq W] (svc : I → Service)
    (es : List (Event K I H W)) (s : Runtime K I H W)
    (hC : Trace.Along (Runtime.step svc) InTurn {} es)
    (h : Trace.run (Runtime.step svc) {} es = some s) (err : Option Err)
    (newer older : List (Note K I H W)) (hlog : s.log = newer ++ .answered .shutdown err :: older) :
    s.live = [] ∧ (∀ w, .launched w ∉ newer) ∧ ∀ k i, .called .start k i ∉ newer := by
  have hinit : StopInv ({} : Runtime K I H W) := ⟨fun _ => rfl, nofun, nofun, nofun, nofun, trivial⟩
  have hinv := Trace.run_inv (fun s e s' hs hC h => StopInv.step hs hC h) hinit hC h
  have hmem : .answered .shutdown err ∈ s.log :=
    hlog ▸ List.mem_append_right newer List.mem_cons_self
  have hquiet : ∀ n ∈ newer, n.ofStart = true → False := by
    intro n hn hstart
    obtain ⟨between, hquiet⟩ := hinv.quiet.after hlog hn
    exact hquiet hstart err (List.mem_append_right between List.mem_cons_self)
  refine ⟨hinv.gone ?_, fun w hw => hquiet _ hw rfl, fun k i hk => hquiet _ hk rfl⟩
  rw [hinv.answered err hmem]
  rfl

end

def startThenShutdown : List (Event Nat Nat Nat Nat) :=
  [ .act (.caller 0) (.withWorker 5), .act (.caller 0) (.call .start), .go .start,
    .go .start, .go .start, .go .start, .go .start, .go .start, .go .start, .go .start,
    .go .start, .go .start, .go .start, .go (.caller 0),
    .act (.caller 0) (.call .shutdown), .shutdown, .exit (.named 5), .shutdown,
    .go .close, .go .close, .go .close, .closed false, .shutdown, .go (.caller 0) ]

theorem nothing_runs_after_in_turn :
    Trace.Along (Runtime.step fun _ => {}) InTurn {} startThenShutdown ∧
      ∃ s newer older, Trace.run (Runtime.step fun _ => {}) {} startThenShutdown = some s ∧
        s.log = newer ++ .answered .shutdown none :: older ∧ s.live = [] ∧
        (∀ w, .launched w ∉ newer) ∧ ∀ k i, .called .start k i ∉ newer := by
  have hC : Trace.Along (Runtime.step fun _ => {}) InTurn {} startThenShutdown := by decide
  have hrun : (Trace.run (Runtime.step fun _ => {}) {} startThenShutdown).map
      (fun s => decide (.answered .shutdown none ∈ s.log)) = some true := by decide
  obtain ⟨s, hs, hmem⟩ := Option.map_eq_some_iff.mp hrun
  obtain ⟨newer, older, hlog⟩ := List.append_of_mem (of_decide_eq_true hmem)
  exact ⟨hC, s, newer, older, hs, hlog,
    nothing_runs_after_shutdown _ _ s hC hs none newer older hlog⟩

def shutdownThenStart : List (Event Nat Nat Nat Nat) :=
  [ .act (.caller 0) (.provide 0 7), .act (.caller 0) (.withWorker 5),
    .act (.caller 0) (.call .shutdown), .shutdown, .shutdown,
    .go .close, .go .close, .go .close, .go .close, .go .close, .closed false, .shutdown,
    .go (.caller 0),
    .act (.caller 0) (.call .start), .go .start,
    .go .start, .go .start, .go .start, .go .start, .go .start, .go .start, .go .start, .go .start,
    .go .start, .go .start, .go .start, .go .start, .act .start (.ret none), .go .start,
    .go .start ]

/-- A service is started after `Shutdown` returned. -/
theorem start_runs_after_shutdown :
    (Trace.run (Runtime.step fun _ => { starter := true }) {} shutdownThenStart).map (fun s =>
      (decide ([.launched (.named 5), .called .start 0 7, .answered .shutdown none].Sublist s.log),
        s.live)) = some (true, [.named 5]) := by
  decide

end Runtime

end Microjet.Host
