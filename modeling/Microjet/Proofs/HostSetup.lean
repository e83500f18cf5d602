import Microjet.Proofs.HostFailure
import Microjet.Proofs.HostPhases

/-!
# Setup

Once services are initialized `Setup` also runs the queue, on the goroutine that called it: a
handler that calls `Setup` runs handlers inside itself, and their error goes to `App.err`, which
`start` does not look at any more. As long as `Setup` is called before that (`QueuesEarly`),
handlers come one after the other in `start`, and an error of one ends it.
-/

namespace Microjet.Host

open Errorx

variable {K I H W : Type}

/-! ### The notes about setup -/

/-- A handler begins or returns. -/
def Note.ofHandler : Note K I H W → Bool
  | .handlerStarted _ => true
  | .handlerReturned _ _ => true
  | _ => false

/-- Handlers one after the other. -/
def handlerRuns (runs : List (H × Option Err)) : List (Note K I H W) :=
  runs.flatMap fun r => [.handlerReturned r.1 r.2, .handlerStarted r.1]

/-- The error of a setup. -/
def Note.setupFailure : Note K I H W → Option Err
  | .returned .setup _ _ (some e) => some (Runtime.phaseError "setting up services" e)
  | .handlerReturned _ (some e) => some (Runtime.phaseError "running setup" e)
  | _ => none

/-- No service was started. -/
def Unstarted (log : List (Note K I H W)) : Prop := ∀ k i, .called .start k i ∉ log

/-- The `Setup` hooks have returned, but for the running one. -/
def HooksBack (busy : Option (K × I)) (log : List (Note K I H W)) : Prop :=
  ∀ k i, .called .setup k i ∈ log → busy = some (k, i) ∨ .returned .setup k i none ∈ log

/-- No handler has begun yet. -/
structure Before (busy : Option (K × I)) (handlers log : List (Note K I H W)) : Prop where
  hooks : HooksBack busy log
  handlers : log.filter Note.ofHandler = handlers
  unstarted : Unstarted log

/-- What the log says of the setup. -/
def Starting.Setups (log : List (Note K I H W)) : Starting K I H W → Prop
  | .fresh => Before none [] log
  | .called => Before none [] log
  | .initing _ _ => Before none [] log
  | .setting _ busy => Before busy [] log
  | .draining none => ∃ runs, Before none (handlerRuns runs) log
  | .draining (some h) => ∃ runs, Before none (.handlerStarted h :: handlerRuns runs) log
  | _ => True

section

variable {busy : Option (K × I)} {handlers log : List (Note K I H W)} {n : Note K I H W}
  {c : Starting K I H W} {k : K} {i : I} {h : H}

theorem Unstarted.note (h : Unstarted log) (hn : ∀ k i, n ≠ .called .start k i) :
    Unstarted (n :: log) := by
  intro k i hk
  rcases List.mem_cons.mp hk with hk | hk
  · exact hn k i hk.symm
  · exact h k i hk

theorem Before.note (hb : Before busy handlers log) (hs : ∀ k i, n ≠ .called .setup k i)
    (hh : n.ofHandler = false) (hu : ∀ k i, n ≠ .called .start k i) :
    Before busy handlers (n :: log) where
  hooks := fun k i hk => by
    rcases List.mem_cons.mp hk with hk | hk
    · exact absurd hk.symm (hs k i)
    · exact (hb.hooks k i hk).imp_right (List.mem_cons_of_mem n)
  handlers := by
    rw [List.filter_cons_of_neg (by rw [hh]; exact Bool.false_ne_true)]
    exact hb.handlers
  unstarted := hb.unstarted.note hu

theorem Before.called (hb : Before none handlers log) :
    Before (some (k, i)) handlers (.called .setup k i :: log) where
  hooks := fun j x hj => by
    rcases List.mem_cons.mp hj with hj | hj
    · cases hj
      exact .inl rfl
    · exact .inr (List.mem_cons_of_mem _ ((hb.hooks j x hj).resolve_left nofun))
  handlers := hb.handlers
  unstarted := hb.unstarted.note nofun

theorem Before.returned (hb : Before (some (k, i)) handlers log) :
    Before none handlers (.returned .setup k i none :: log) where
  hooks := fun j x hj => by
    rcases List.mem_cons.mp hj with hj | hj
    · cases hj
    · rcases hb.hooks j x hj with hbusy | hret
      · cases hbusy
        exact .inr List.mem_cons_self
      · exact .inr (List.mem_cons_of_mem _ hret)
  handlers := hb.handlers
  unstarted := hb.unstarted.note nofun

theorem Before.handler (hb : Before none handlers log) (hn : n.ofHandler = true) :
    Before none (n :: handlers) (n :: log) where
  hooks := fun j x hj => by
    rcases List.mem_cons.mp hj with rfl | hj
    · cases hn
    · exact (hb.hooks j x hj).imp_right (List.mem_cons_of_mem n)
  handlers := by rw [List.filter_cons_of_pos hn, hb.handlers]
  unstarted := hb.unstarted.note fun k i hk => by rw [hk] at hn; cases hn

theorem Starting.Setups.note (h : c.Setups log) (hs : ∀ k i, n ≠ .called .setup k i)
    (hh : n.ofHandler = false) (hu : ∀ k i, n ≠ .called .start k i) : c.Setups (n :: log) := by
  cases c with
  | fresh | called | initing | setting => exact Before.note h hs hh hu
  | draining busy =>
    cases busy with
    | none | some =>
      obtain ⟨runs, hb⟩ := h
      exact ⟨runs, hb.note hs hh hu⟩
  | _ => trivial

theorem Starting.Setups.enter (h : c.Setups log) : c.enter.Setups log := by
  cases c <;> exact h

end

/-- A handler starts when all `Setup` hooks are back and the handlers before it have run, and no
`Setup` hook is called afterwards. -/
def SetupOrder (n : Note K I H W) (older : List (Note K I H W)) : Prop :=
  (∀ h, n = .handlerStarted h → HooksBack none older ∧
    ∃ runs, older.filter Note.ofHandler = handlerRuns runs) ∧
  ∀ k i, n = .called .setup k i → older.filter Note.ofHandler = []

/-- A failed setup ends `Start`. -/
def SetupFails (c : Starting K I H W) (log : List (Note K I H W)) : Prop :=
  ∀ n ∈ log, ∀ err, n.setupFailure = some err → c.Failed err ∧ Unstarted log

section

variable {c c' : Starting K I H W} {log : List (Note K I H W)} {n : Note K I H W}

theorem SetupFails.note (h : SetupFails c log) (hf : n.setupFailure = none)
    (hn : ∀ k i, n ≠ .called .start k i) : SetupFails c (n :: log) := by
  intro m hm err herr
  rcases List.mem_cons.mp hm with rfl | hm
  · rw [hf] at herr
    cases herr
  · exact ⟨(h m hm err herr).1, (h m hm err herr).2.note hn⟩

theorem SetupFails.move (h : SetupFails c log) (hc : c.ended = false) : SetupFails c' log := by
  intro m hm err herr
  cases hc.symm.trans (h m hm err herr).1.ended

theorem SetupFails.go (h : SetupFails c log) (hc : c.ended = false)
    (hn : ∀ err, n.setupFailure = some err → c'.Failed err ∧ Unstarted (n :: log)) :
    SetupFails c' (n :: log) := by
  intro m hm err herr
  rcases List.mem_cons.mp hm with rfl | hm
  · exact hn err herr
  · cases hc.symm.trans (h m hm err herr).1.ended

theorem SetupFails.enter (h : SetupFails c log) : SetupFails c.enter log := by
  intro m hm err herr
  exact ⟨(h m hm err herr).1.enter, (h m hm err herr).2⟩

end

namespace Runtime

section

variable [DecidableEq K] [DecidableEq I] {svc : I → Service} {s s' : Runtime K I H W}
  {c : Starting K I H W}

theorem StartMoves.setups (hs : c.Setups s.log) (hf : c.Flagged s.app)
    (h : StartMoves svc s c s') : s'.start.Setups s'.log := by
  cases h with
  | skipInit hi | skipBoth hi => exact absurd (hf.1.symm.trans hi) Bool.false_ne_true
  | endInitSkip htodo hnext hset => exact absurd (hf.2.1.symm.trans hset) Bool.false_ne_true
  | beginInit | passOver | nextPass | endInit | skipSetup => exact hs
  | @visit r k todo i => exact Before.note hs nofun rfl nofun
  | @callInit r k todo i =>
    refine Before.note (Before.note (n := .visited _ _ _ _) hs nofun rfl nofun) ?_ rfl ?_
    all_goals cases hp : r.pass <;> exact nofun
  | initReturned => exact Before.note hs nofun rfl nofun
  | callSetup => exact Before.called hs
  | setupReturned => exact Before.returned hs
  | endSetup => exact ⟨[], hs⟩
  | handler =>
    obtain ⟨runs, hb⟩ := hs
    exact ⟨runs, hb.handler rfl⟩
  | @handlerReturned h =>
    obtain ⟨runs, hb⟩ := hs
    exact ⟨(h, none) :: runs, hb.handler rfl⟩
  | _ => trivial

theorem StartMoves.setupOrder (hlog : Log.Each SetupOrder s.log) (hs : c.Setups s.log)
    (h : StartMoves svc s c s') : Log.Each SetupOrder s'.log := by
  cases h with
  | @callInit r k todo i =>
    refine ⟨⟨nofun, fun j x hx => ?_⟩, ⟨nofun, nofun⟩, hlog⟩
    cases hp : r.pass <;> rw [hp] at hx <;> cases hx
  | callSetup => exact ⟨⟨nofun, fun _ _ _ => hs.handlers⟩, hlog⟩
  | handler =>
    obtain ⟨runs, hb⟩ := hs
    exact ⟨⟨fun _ _ => ⟨hb.hooks, runs, hb.handlers⟩, nofun⟩, hlog⟩
  | visit | initReturned | initFailed | setupReturned | setupFailed | handlerReturned
  | handlerFailed | callStart | startReturned | startFailed | launch | launchService =>
    exact ⟨⟨nofun, nofun⟩, hlog⟩
  | _ => exact hlog

theorem StartMoves.setupFails (hs : SetupFails c s.log) (hb : c.Setups s.log)
    (h : StartMoves svc s c s') : SetupFails s'.start s'.log := by
  cases h with
  | @callInit r k todo i =>
    refine (hs.note (n := .visited _ _ _ _) rfl nofun).go rfl nofun
  | @initReturned r k i | @initFailed r k i =>
    refine hs.go rfl fun err herr => ?_
    cases hp : r.pass <;> rw [hp] at herr <;> cases herr
  | setupFailed =>
    refine hs.go rfl fun err herr => ?_
    cases herr
    exact ⟨.inl rfl, hb.unstarted.note nofun⟩
  | handlerFailed =>
    obtain ⟨runs, hb⟩ := hb
    refine hs.go rfl fun err herr => ?_
    cases herr
    exact ⟨.inl rfl, hb.unstarted.note nofun⟩
  | fail hclosed =>
    intro m hm err herr
    obtain ⟨hf, hun⟩ := hs m hm err herr
    rcases hf with hf | hf <;> cases hf
    exact ⟨.inr rfl, hun⟩
  | visit | callSetup | setupReturned | handler | handlerReturned | callStart | startReturned
  | startFailed | launch | launchService => exact hs.go rfl nofun
  | _ => exact hs.move rfl

/-- `Setup` is called before services are initialized. -/
def QueuesEarly (s : Runtime K I H W) : Event K I H W → Prop
  | .act _ (.setup (some _)) => s.app.isServiceInitialized = false ∨ s.app.err.isSome = true
  | _ => True

instance decidableQueuesEarly (s : Runtime K I H W) :
    (e : Event K I H W) → Decidable (s.QueuesEarly e)
  | .act _ (.setup (some _)) => inferInstanceAs (Decidable (_ ∨ _))
  | .act _ (.setup none) | .act _ (.provide _ _) | .act _ (.withWorker _) | .act _ (.fail _)
  | .act _ (.call _) | .act _ (.ret _) | .go _ | .closed _ | .shutdown | .expire _
  | .workerDone | .shutdownCh | .fatal _ | .exit _ | .ctxDone => .isTrue trivial

/-- Nobody runs handlers inside a call. -/
def Undrained (s : Runtime K I H W) : Prop := ∀ t, ∀ f ∈ s.stack t, ∃ e, f = .await e

omit [DecidableEq K] [DecidableEq I] in
theorem Undrained.setStack {t : Thread} {fs : List (Frame H)} (hs : s.Undrained)
    (hfs : ∀ f ∈ fs, ∃ e, f = .await e) (hstack : s'.stack = Function.update s.stack t fs) :
    s'.Undrained := by
  intro u f hf
  rw [hstack] at hf
  by_cases hu : u = t
  · subst hu
    rw [Function.update_self] at hf
    exact hfs f hf
  · rw [Function.update_of_ne hu] at hf
    exact hs u f hf

omit [DecidableEq K] [DecidableEq I] in
theorem Undrained.no_drain {t : Thread} (hs : s.Undrained)
    (hf : .drain ∈ s.stack t) : False := by
  obtain ⟨e, he⟩ := hs t .drain hf
  cases he

/-- The invariant. -/
structure SetupInv (s : Runtime K I H W) : Prop where
  flagged : s.start.Flagged s.app
  course : s.start.Course s.log
  undrained : s.Undrained
  setups : s.start.Setups s.log
  order : Log.Each SetupOrder s.log
  fails : SetupFails s.start s.log

omit [DecidableEq K] [DecidableEq I] in
theorem setupInv_init : SetupInv ({} : Runtime K I H W) where
  flagged := ⟨rfl, rfl, rfl⟩
  course := course_init
  undrained := nofun
  setups := ⟨nofun, rfl, nofun⟩
  order := trivial
  fails := nofun

theorem SetupInv.step [DecidableEq W] {e : Event K I H W} (hs : s.SetupInv)
    (hC : s.QueuesEarly e) (h : s.step svc e = some s') : s'.SetupInv := by
  have hflagged := flagged_step hs.flagged h
  have hcourse := course_step hs.course h
  obtain ⟨hf, -, hdrain, hsetups, horder, hfails⟩ := hs
  cases moves h with
  | start hc hstack h =>
    subst hc
    exact ⟨hflagged, hcourse, fun t f hf => hdrain t f (h.stack ▸ hf), h.setups hsetups hf,
      h.setupOrder horder hsetups, h.setupFails hfails hsetups⟩
  | close he hc h =>
    cases h with
    | callClose | closeReturned =>
      exact ⟨hflagged, hcourse, hdrain, hsetups.note nofun rfl nofun, ⟨⟨nofun, nofun⟩, horder⟩,
        hfails.note rfl nofun⟩
    | _ => exact ⟨hflagged, hcourse, hdrain, hsetups, horder, hfails⟩
  | drain ho herr hi =>
    rcases hC with hC | hC
    · cases hC.symm.trans hi
    · rw [herr] at hC
      cases hC
  | handlerReturned htop | handlerFailed htop =>
    exact (hdrain.no_drain (htop ▸ List.mem_cons_of_mem _ List.mem_cons_self)).elim
  | handler htop | drained htop => exact (hdrain.no_drain (htop ▸ List.mem_cons_self)).elim
  | provide =>
    exact ⟨hflagged, hcourse, hdrain, hsetups.note nofun rfl nofun, ⟨⟨nofun, nofun⟩, horder⟩,
      hfails.note rfl nofun⟩
  | @answered t e rest err htop =>
    refine ⟨hflagged, hcourse, hdrain.setStack (fun f hf => ?_) rfl,
      hsetups.note nofun rfl nofun, ⟨⟨nofun, nofun⟩, horder⟩, hfails.note rfl nofun⟩
    exact hdrain t f (htop ▸ List.mem_cons_of_mem _ hf)
  | @call t e ho =>
    have hpush : ∀ f ∈ (.await e :: s.stack t : List (Frame H)), ∃ e, f = .await e := by
      intro f hf
      rcases List.mem_cons.mp hf with rfl | hf
      · exact ⟨e, rfl⟩
      · exact hdrain t f hf
    cases e with
    | start =>
      exact ⟨hflagged, hcourse, hdrain.setStack hpush rfl, hsetups.enter, horder,
        hfails.enter⟩
    | _ => exact ⟨hflagged, hcourse, hdrain.setStack hpush rfl, hsetups, horder, hfails⟩
  | _ => exact ⟨hflagged, hcourse, hdrain, hsetups, horder, hfails⟩

end

/-- How setup goes in a run that has come to `s`. -/
structure SetupSpec (s : Runtime K I H W) : Prop where
  /-- An error of a `Setup` hook or a handler is what `Start` returns, and no service is
  started. -/
  failed : ∀ n ∈ s.log, ∀ err, n.setupFailure = some err → s.start.Failed err ∧
    (∀ e, .answered .start e ∈ s.log → e = some err) ∧ ∀ k i, .called .start k i ∉ s.log
  /-- When a handler starts, every `Setup` hook there is has returned. -/
  afterHooks : ∀ newer h older, s.log = newer ++ .handlerStarted h :: older →
    ∀ k i, .called .setup k i ∈ s.log → .returned .setup k i none ∈ older
  /-- And so have the handlers before it. -/
  serial : ∀ newer h older, s.log = newer ++ .handlerStarted h :: older →
    ∃ runs, older.filter Note.ofHandler = handlerRuns runs

section

variable [DecidableEq K] [DecidableEq I] [DecidableEq W]

/-- Handlers run one after the other, and one that fails ends `Start`. -/
theorem setup_stops_and_serial (svc : I → Service) (es : List (Event K I H W))
    (s : Runtime K I H W) (hC : Trace.Along (Runtime.step svc) QueuesEarly {} es)
    (h : Trace.run (Runtime.step svc) {} es = some s) : SetupSpec s := by
  have hinv := Trace.run_inv (fun s e s' hs hC h => hs.step hC h) setupInv_init hC h
  refine ⟨fun n hn err herr => ?_, fun newer h older hlog k i hk => ?_,
    fun newer h older hlog => ?_⟩
  · obtain ⟨hfailed, hun⟩ := hinv.fails n hn err herr
    refine ⟨hfailed, fun e he => ?_, hun⟩
    rw [hinv.course.answered e he] at hfailed
    rcases hfailed with hf | hf <;> cases hf
    rfl
  · obtain ⟨hstart, -⟩ := Log.each_iff.mp hinv.order newer _ older hlog
    rw [hlog] at hk
    rcases List.mem_append.mp hk with hk | hk
    · -- a hook called after a handler has started
      obtain ⟨between, -, hcall⟩ := hinv.order.after hlog hk
      have hnone := hcall k i rfl
      rw [List.filter_append, List.filter_cons_of_pos rfl] at hnone
      cases (List.append_eq_nil_iff.mp hnone).2
    · rcases List.mem_cons.mp hk with hk | hk
      · cases hk
      · exact ((hstart h rfl).1 k i hk).resolve_left nofun
  · obtain ⟨hstart, -⟩ := Log.each_iff.mp hinv.order newer _ older hlog
    exact (hstart h rfl).2

end

def failingSetup : List (Event Nat Nat Nat Nat) :=
  [ .act (.caller 0) (.provide 0 7), .act (.caller 0) (.setup (some [0, 1])),
    .act (.caller 0) (.call .start), .go .start,
    -- `initServices` finds nothing to call
    .go .start, .go .start, .go .start, .go .start, .go .start, .go .start, .go .start, .go .start,
    .go .start, .act .start (.ret none), .go .start,
    .go .start, .act .start (.ret none), .go .start, .act .start (.ret (some (.other "migrate"))),
    -- `Close`
    .go .close, .go .close, .go .close, .go .close, .go .close, .closed false, .go .start,
    .go (.caller 0) ]

theorem setup_of_failing :
    Trace.Along (Runtime.step fun _ => { setupper := true, starter := true }) QueuesEarly {}
        failingSetup ∧
      ∃ s, Trace.run (Runtime.step fun _ => { setupper := true, starter := true }) {}
          failingSetup = some s ∧
        .answered .start (some (phaseError "running setup" (.other "migrate"))) ∈ s.log ∧
        SetupSpec s := by
  have hC : Trace.Along (Runtime.step fun _ => { setupper := true, starter := true }) QueuesEarly
      {} failingSetup := by decide
  have hrun : (Trace.run (Runtime.step fun _ => { setupper := true, starter := true }) {}
      failingSetup).map (fun s => decide
        (.answered .start (some (phaseError "running setup" (.other "migrate"))) ∈ s.log)) =
      some true := by decide
  obtain ⟨s, hs, hmem⟩ := Option.map_eq_some_iff.mp hrun
  exact ⟨hC, s, hs, of_decide_eq_true hmem, setup_stops_and_serial _ _ s hC hs⟩

def nestedSetup : List (Event Nat Nat Nat Nat) :=
  [ .act (.caller 0) (.provide 0 7), .act (.caller 0) (.setup (some [0])),
    .act (.caller 0) (.call .start), .go .start,
    .go .start, .go .start, .go .start, .go .start, .go .start, .go .start, .go .start, .go .start,
    .go .start, .go .start,
    -- the inner handler starts and fails before the outer one returns
    .go .start, .act .start (.setup (some [1])), .go .start,
    .act .start (.ret (some (.other "migrate"))), .act .start (.ret none), .go .start,
    -- the service is started
    .go .start, .act .start (.ret none), .go .start,
    .go .start, .go .start, .go .start, .go .start, .go .start, .go (.caller 0) ]

/-- The error of a nested handler is lost. -/
theorem nested_setup_failure_lost :
    (Trace.run (Runtime.step fun _ => { starter := true }) {} nestedSetup).map (fun s =>
      decide ([.handlerReturned 0 none, .handlerReturned 1 (some (.other "migrate")),
        .handlerStarted 1, .handlerStarted 0].Sublist s.log ∧ .called .start 0 7 ∈ s.log ∧
        .answered .start none ∈ s.log)) = some true := by
  decide

end Runtime

end Microjet.Host
