import Microjet.Host.Runtime
import Microjet.Lib.Run

/-!
# The moves of the host

A step of `Runtime` is one of a fixed number of moves, and each proof about runs goes through
them. Nothing but a `StartMoves` goes on in the body of `Start`, apart from the first call.
-/

namespace Microjet.Host

open Errorx

variable {K I H W : Type}

namespace Runtime

/-- What is under the key has no such hook. -/
def Plain (svc : I → Service) (a : App K I H W) (p : Phase) (k : K) : Prop :=
  ∀ i, a.container.load k = some i → (svc i).has p = false

theorem plain_of_none {svc : I → Service} {a : App K I H W} {p : Phase} {k : K}
    (hk : a.container.load k = none) : Plain svc a p k := by
  intro i hi
  rw [hk] at hi
  cases hi

theorem plain_of_some {svc : I → Service} {a : App K I H W} {p : Phase} {k : K} {i : I}
    (hk : a.container.load k = some i) (hhas : ¬(svc i).has p = true) : Plain svc a p k := by
  intro j hj
  rw [hk] at hj
  cases hj
  exact Bool.eq_false_iff.mpr hhas

/-- The moves of `Start`, with the returns of what it called. -/
inductive StartMoves [DecidableEq K] [DecidableEq I] (svc : I → Service) (s : Runtime K I H W) :
    Starting K I H W → Runtime K I H W → Prop
  | refused {err} (herr : s.app.err = some err) :
      StartMoves svc s .called (s.failStart err)
  | skipInit (hi : s.app.isServiceInitialized = true) (hs : s.app.isServiceSetup = false) :
      StartMoves svc s .called { s with start := .setting s.app.container.keys none }
  | skipBoth (hi : s.app.isServiceInitialized = true) (hs : s.app.isServiceSetup = true) :
      StartMoves svc s .called { s with start := .draining none }
  | beginInit (hi : s.app.isServiceInitialized = false) :
      StartMoves svc s .called { s with start := .initing (.first s.app.container.keys) none }
  | passOver {r k todo} (htodo : r.todo = k :: todo)
      (hskip : s.app.container.load k = none ∨ r.due k = false) :
      StartMoves svc s (.initing r none) { s with start := .initing { r with todo } none }
  | visit {r k todo i} (htodo : r.todo = k :: todo)
      (hi : s.app.container.load k = some i) (hdue : r.due k = true)
      (hhas : (svc i).has r.pass.phase = false) :
      StartMoves svc s (.initing r none) { s.note (.visited r.number r.pass.phase k i) with
        start := .initing { r.mark k with todo } none }
  | callInit {r k todo i} (htodo : r.todo = k :: todo)
      (hi : s.app.container.load k = some i) (hdue : r.due k = true)
      (hhas : (svc i).has r.pass.phase = true) :
      StartMoves svc s (.initing r none)
        { (s.note (.visited r.number r.pass.phase k i)).note (.called r.pass.phase k i) with
          start := .initing { r.mark k with todo } (some (k, i)) }
  | nextPass {r r'} (htodo : r.todo = [])
      (hnext : r.next s.app.container.keys = some r') :
      StartMoves svc s (.initing r none) { s with start := .initing r' none }
  | endInit {r} (htodo : r.todo = [])
      (hnext : r.next s.app.container.keys = none) (hs : s.app.isServiceSetup = false) :
      StartMoves svc s (.initing r none) { s with
        app := { s.app with isServiceInitialized := true }
        start := .setting s.app.container.keys none }
  | endInitSkip {r} (htodo : r.todo = [])
      (hnext : r.next s.app.container.keys = none) (hs : s.app.isServiceSetup = true) :
      StartMoves svc s (.initing r none) { s with
        app := { s.app with isServiceInitialized := true }
        start := .draining none }
  | initReturned {r k i} :
      StartMoves svc s (.initing r (some (k, i)))
        { s.note (.returned r.pass.phase k i none) with start := .initing r none }
  | initFailed {r k i e} :
      StartMoves svc s (.initing r (some (k, i)))
        ((s.note (.returned r.pass.phase k i (some e))).failStart
          (phaseError "initializing services" e))
  | skipSetup {k todo} (hp : Plain svc s.app .setup k) :
      StartMoves svc s (.setting (k :: todo) none) { s with start := .setting todo none }
  | callSetup {k todo i}
      (hi : s.app.container.load k = some i) (hhas : (svc i).has .setup = true) :
      StartMoves svc s (.setting (k :: todo) none)
        { s.note (.called .setup k i) with start := .setting todo (some (k, i)) }
  | endSetup :
      StartMoves svc s (.setting [] none)
        { s with app := { s.app with isServiceSetup := true }, start := .draining none }
  | setupReturned {todo k i} :
      StartMoves svc s (.setting todo (some (k, i)))
        { s.note (.returned .setup k i none) with start := .setting todo none }
  | setupFailed {todo k i e} :
      StartMoves svc s (.setting todo (some (k, i)))
        ((s.note (.returned .setup k i (some e))).failStart (phaseError "setting up services" e))
  | handler {h setups} (hq : s.app.setups = h :: setups) :
      StartMoves svc s (.draining none) { s.note (.handlerStarted h) with
        app := { s.app with setups }, start := .draining (some h) }
  | endDrain (hq : s.app.setups = []) (hs : s.app.isServiceStarted = false) :
      StartMoves svc s (.draining none) { s with start := .starting s.app.container.keys none }
  | endDrainSkip (hq : s.app.setups = []) (hs : s.app.isServiceStarted = true) :
      StartMoves svc s (.draining none)
        { s with app := { s.app with workerCtx := true }, start := .launching s.app.workers }
  | handlerReturned {h} :
      StartMoves svc s (.draining (some h))
        { s.note (.handlerReturned h none) with start := .draining none }
  | handlerFailed {h e} :
      StartMoves svc s (.draining (some h))
        ((s.note (.handlerReturned h (some e))).failStart (phaseError "running setup" e))
  | skipStart {k todo} (hp : Plain svc s.app .start k) :
      StartMoves svc s (.starting (k :: todo) none) { s with start := .starting todo none }
  | callStart {k todo i}
      (hi : s.app.container.load k = some i) (hhas : (svc i).has .start = true) :
      StartMoves svc s (.starting (k :: todo) none)
        { s.note (.called .start k i) with start := .starting todo (some (k, i)) }
  | endStart :
      StartMoves svc s (.starting [] none) { s with
        app := { s.app with isServiceStarted := true, workerCtx := true }
        start := .launching s.app.workers }
  | startReturned {todo k i} :
      StartMoves svc s (.starting todo (some (k, i)))
        { s.note (.returned .start k i none) with start := .starting todo none }
  | startFailed {todo k i e} :
      StartMoves svc s (.starting todo (some (k, i)))
        ((s.note (.returned .start k i (some e))).failStart (phaseError "starting services" e))
  | launch {w todo} :
      StartMoves svc s (.launching (w :: todo))
        { s.launch (.named w) with start := .launching todo }
  | endLaunch :
      StartMoves svc s (.launching []) { s with start := .gathering s.app.container.keys [] }
  | gather {k todo found} (found' : List I) :
      StartMoves svc s (.gathering (k :: todo) found) { s with start := .gathering todo found' }
  | endGather {found} :
      StartMoves svc s (.gathering [] found) { s with start := .launchingServices found }
  | launchService {i todo} :
      StartMoves svc s (.launchingServices (i :: todo))
        { s.launch (.service i) with start := .launchingServices todo }
  | endLaunchServices :
      StartMoves svc s (.launchingServices [])
        { s with app := { s.app with workerWg := true }, start := .merging }
  | merge :
      StartMoves svc s .merging
        { s with app := { s.app with fatalCh := s.app.fatalErrCh svc }, start := .done none }
  | fail {err} (hclosed : s.closed.isSome = true) :
      StartMoves svc s (.failing err) { s with start := .done (some err) }

/-- The moves of the goroutine of `Close`. -/
inductive CloseMoves (svc : I → Service) (s : Runtime K I H W) :
    Closing K I → Runtime K I H W → Prop
  | snapshot :
      CloseMoves svc s .spawned { s with close := .collecting s.app.container.keys [] }
  | gone {k todo entries}
      (hk : s.app.container.load k = none) :
      CloseMoves svc s (.collecting (k :: todo) entries)
        { s with close := .collecting todo entries }
  | collect {k i todo entries}
      (hi : s.app.container.load k = some i) :
      CloseMoves svc s (.collecting (k :: todo) entries)
        { s with close := .collecting todo (entries ++ [(k, i)]) }
  | sort {entries} :
      CloseMoves svc s (.collecting [] entries)
        { s with close := .closing (closeSequence svc entries) none }
  | skipClose {k i todo}
      (hhas : (svc i).has .close = false) :
      CloseMoves svc s (.closing ((k, i) :: todo) none) { s with close := .closing todo none }
  | callClose {k i todo}
      (hhas : (svc i).has .close = true) :
      CloseMoves svc s (.closing ((k, i) :: todo) none)
        { s.note (.called .close k i) with close := .closing todo (some (k, i)) }
  | closeReturned {k i todo err} :
      CloseMoves svc s (.closing todo (some (k, i)))
        { s.note (.returned .close k i err) with close := .closing todo none }
  | finish : CloseMoves svc s (.closing [] none) { s with close := .finished }

/-- All moves. -/
inductive Moves [DecidableEq K] [DecidableEq I] [DecidableEq W] (svc : I → Service)
    (s : Runtime K I H W) : Event K I H W → Runtime K I H W → Prop
  | start {e c s'} (hc : s.start = c) (hstack : s.stack .start = []) (h : StartMoves svc s c s') :
      Moves svc s e s'
  | close {e c s'} (he : e ≠ .go .start) (hc : s.close = c) (h : CloseMoves svc s c s') :
      Moves svc s e s'
  | provide {t k i} (ho : s.outside t = true) :
      Moves svc s (.act t (.provide k i))
        ({ s with app := s.app.storeKey k i }.note (.provided k i))
  | setupNothing {t handlers} : Moves svc s (.act t (.setup handlers)) s
  | enqueue {t} {handlers : List H} (hi : s.app.isServiceInitialized = false) :
      Moves svc s (.act t (.setup (some handlers)))
        { s with app := { s.app with setups := s.app.setups ++ handlers } }
  | drain {t} {handlers : List H} (ho : s.outside t = true) (herr : s.app.err = none)
      (hi : s.app.isServiceInitialized = true) :
      Moves svc s (.act t (.setup (some handlers)))
        ({ s with app := { s.app with setups := s.app.setups ++ handlers } }.setStack t
          (.drain :: s.stack t))
  | withWorker {t w} : Moves svc s (.act t (.withWorker w)) { s with app := s.app.withWorker w }
  | fail {t err} : Moves svc s (.act t (.fail err)) { s with app := s.app.fail err }
  | call {t} (e : Entry) (ho : s.outside t = true) :
      Moves svc s (.act t (.call e)) ((s.enter e).setStack t (.await e :: s.stack t))
  | handlerReturned {t h rest} (hs : s.stack t = .handler h :: .drain :: rest) :
      Moves svc s (.act t (.ret none))
        ((s.note (.handlerReturned h none)).setStack t (.drain :: rest))
  | handlerFailed {t h rest e} (hs : s.stack t = .handler h :: .drain :: rest) :
      Moves svc s (.act t (.ret (some e)))
        ({ s.note (.handlerReturned h (some e)) with app := s.app.fail e }.setStack t rest)
  | handler {t rest h setups} (hs : s.stack t = .drain :: rest)
      (hq : s.app.setups = h :: setups) :
      Moves svc s (.go t)
        ({ s.note (.handlerStarted h) with app := { s.app with setups } }.setStack t
          (.handler h :: .drain :: rest))
  | drained {t rest} (hs : s.stack t = .drain :: rest) (hq : s.app.setups = []) :
      Moves svc s (.go t) (s.setStack t rest)
  | answered {t e rest err} (hs : s.stack t = .await e :: rest) (ha : s.answer e = some err) :
      Moves svc s (.go t) ((s.note (.answered e err)).setStack t rest)
  | closed {timedOut} (hn : s.closed = none) (hb : s.close.ended timedOut = true) :
      Moves svc s (.closed timedOut) { s with closed := some timedOut }
  | cancel (hc : s.shutdown = .draining) :
      Moves svc s .shutdown
        { s with cancelled := s.cancelled || s.app.workerCtx, shutdown := .waiting }
  | waited (hc : s.shutdown = .waiting) (hw : s.app.workerWg = false ∨ s.live = []) :
      Moves svc s .shutdown { s.enter .close with shutdown := .closing none }
  | shut {err} (hc : s.shutdown = .closing err) (hd : s.closed.isSome = true) :
      Moves svc s .shutdown { s with shutdown := .done err }
  | expire {err} (hc : s.shutdown = .waiting) :
      Moves svc s (.expire err) { s.enter .close with shutdown := .closing (some err) }
  | endWait {e b c err} (he : e ≠ .go .start) (hc : s.wait = .waiting b c) :
      Moves svc s e { s with wait := .done err }
  | exit {w} (hw : w ∈ s.live) : Moves svc s (.exit w) { s with live := s.live.erase w }
  | ctxDone : Moves svc s .ctxDone { s with ctxDone := true }

section

variable [DecidableEq K] [DecidableEq I] {svc : I → Service} {s s' : Runtime K I H W}

theorem stepInit_moves (r : Round K) : StartMoves svc s (.initing r none) (s.stepInit svc r) := by
  unfold stepInit
  split
  next k todo htodo =>
    split
    next hk => exact .passOver htodo (.inl hk)
    next i hi =>
      split
      next hdue =>
        dsimp only
        split
        next hhas => exact .callInit htodo hi hdue hhas
        next hhas => exact .visit htodo hi hdue (Bool.eq_false_iff.mpr hhas)
      next hdue => exact .passOver htodo (.inr (Bool.eq_false_iff.mpr hdue))
  next htodo =>
    split
    next r' hnext => exact .nextPass htodo hnext
    next hnext =>
      unfold beginSetup
      split
      next hs => exact .endInitSkip htodo hnext hs
      next hs => exact .endInit htodo hnext (Bool.eq_false_iff.mpr hs)

theorem stepStart_moves (h : s.stepStart svc = some s') : StartMoves svc s s.start s' := by
  unfold stepStart at h
  split at h <;> try cases h
  next hc =>
    rw [hc]
    split
    next err herr => exact .refused herr
    next herr =>
      split
      next hi =>
        unfold beginSetup
        split
        next hs => exact .skipBoth hi hs
        next hs => exact .skipInit hi (Bool.eq_false_iff.mpr hs)
      next hi => exact .beginInit (Bool.eq_false_iff.mpr hi)
  next r hc => exact hc ▸ stepInit_moves r
  next k todo hc =>
    rw [hc]
    unfold stepWalk
    split
    next hk => exact .skipSetup (plain_of_none hk)
    next i hi =>
      split
      next hhas => exact .callSetup hi hhas
      next hhas => exact .skipSetup (plain_of_some hi hhas)
  next hc => exact hc ▸ .endSetup
  next hc =>
    rw [hc]
    split
    next x setups hq => exact .handler hq
    next hq =>
      unfold beginStart
      split
      next hs => exact .endDrainSkip hq hs
      next hs => exact .endDrain hq (Bool.eq_false_iff.mpr hs)
  next k todo hc =>
    rw [hc]
    unfold stepWalk
    split
    next hk => exact .skipStart (plain_of_none hk)
    next i hi =>
      split
      next hhas => exact .callStart hi hhas
      next hhas => exact .skipStart (plain_of_some hi hhas)
  next hc => exact hc ▸ .endStart
  next w todo hc => exact hc ▸ .launch
  next hc => exact hc ▸ .endLaunch
  next k todo found hc => exact hc ▸ .gather _
  next found hc => exact hc ▸ .endGather
  next i todo hc => exact hc ▸ .launchService
  next hc => exact hc ▸ .endLaunchServices
  next hc => exact hc ▸ .merge
  next err hc =>
    obtain ⟨hclosed, h⟩ := Option.ite_none_right_eq_some.mp h
    cases h
    exact hc ▸ .fail hclosed

variable {err : Option Err}

theorem resumeStart_moves (h : s.resumeStart err = some s') :
    StartMoves svc s s.start s' := by
  unfold resumeStart at h
  split at h <;> cases h <;> cases err
  next hc => exact hc ▸ .initReturned
  next hc e => exact hc ▸ .initFailed
  next hc => exact hc ▸ .setupReturned
  next hc e => exact hc ▸ .setupFailed
  next hc => exact hc ▸ .handlerReturned
  next hc e => exact hc ▸ .handlerFailed
  next hc => exact hc ▸ .startReturned
  next hc e => exact hc ▸ .startFailed

omit [DecidableEq K] [DecidableEq I] in
theorem stepClose_moves (h : s.stepClose svc = some s') : CloseMoves svc s s.close s' := by
  unfold stepClose at h
  split at h <;> try cases h
  next hc => exact hc ▸ .snapshot
  next k todo entries hc =>
    rw [hc]
    split
    next hk => exact .gone hk
    next i hi => exact .collect hi
  next entries hc => exact hc ▸ .sort
  next k i todo hc =>
    rw [hc]
    split
    next hhas => exact .callClose hhas
    next hhas => exact .skipClose (Bool.eq_false_iff.mpr hhas)
  next hc => exact hc ▸ .finish

omit [DecidableEq K] [DecidableEq I] in
theorem resumeClose_moves (h : s.resumeClose err = some s') :
    CloseMoves svc s s.close s' := by
  unfold resumeClose at h
  split at h <;> cases h
  next todo k i hc => exact hc ▸ .closeReturned

variable [DecidableEq W]

variable {t : Thread}

theorem setup_moves {handlers : Option (List H)} (ho : s.outside t = true) :
    Moves svc s (.act t (.setup handlers)) (s.setup t handlers) := by
  cases handlers with
  | none => exact .setupNothing
  | some handlers =>
    simp only [setup]
    split
    next => exact .setupNothing
    next herr =>
      have herr : s.app.err = none := Option.not_isSome_iff_eq_none.mp herr
      split
      next hi => exact .drain ho herr hi
      next hi => exact .enqueue (Bool.eq_false_iff.mpr hi)

theorem ret_moves (h : s.ret t err = some s') :
    Moves svc s (.act t (.ret err)) s' := by
  unfold ret at h
  split at h
  next hs =>
    cases h
    cases err with
    | none => exact .handlerReturned hs
    | some e => exact .handlerFailed hs
  next hs =>
    cases t with
    | caller n => cases h
    | start => exact .start rfl hs (resumeStart_moves h)
    | close => exact .close nofun rfl (resumeClose_moves h)
  next => cases h

theorem act_moves {a : Act K I H W} (ho : s.outside t = true) (h : s.act t a = some s') :
    Moves svc s (.act t a) s' := by
  cases a with
  | provide k i => cases h; exact .provide ho
  | setup handlers => cases h; exact setup_moves ho
  | withWorker w => cases h; exact .withWorker
  | fail err => cases h; exact .fail
  | call e => cases h; exact .call e ho
  | ret err => exact ret_moves h

theorem go_moves (h : s.go svc t = some s') : Moves svc s (.go t) s' := by
  unfold go at h
  split at h
  next rest hs =>
    cases h
    split
    next x setups hq => exact .handler hs hq
    next hq => exact .drained hs hq
  next e rest hs =>
    obtain ⟨err, ha, rfl⟩ := Option.map_eq_some_iff.mp h
    exact .answered hs ha
  next => cases h
  next hs =>
    cases t with
    | caller n => cases h
    | start => exact .start rfl hs (stepStart_moves h)
    | close => exact .close nofun rfl (stepClose_moves h)

theorem stepShutdown_moves (h : s.stepShutdown = some s') : Moves svc s .shutdown s' := by
  unfold stepShutdown at h
  split at h
  next hc => cases h; exact .cancel hc
  next hc =>
    obtain ⟨hw, h⟩ := Option.ite_none_right_eq_some.mp h
    cases h
    exact .waited hc hw
  next err hc =>
    obtain ⟨hd, h⟩ := Option.ite_none_right_eq_some.mp h
    cases h
    exact .shut hc hd
  next => cases h

theorem endWait_moves {e : Event K I H W} {ready : Bool → Bool → Bool} (he : e ≠ .go .start)
    (h : s.endWait ready err = some s') : Moves svc s e s' := by
  unfold endWait at h
  split at h
  next b c hc =>
    obtain ⟨-, h⟩ := Option.ite_none_right_eq_some.mp h
    cases h
    exact .endWait he hc
  next => cases h

theorem moves {e : Event K I H W} (h : s.step svc e = some s') : Moves svc s e s' := by
  cases e with
  | act t a =>
    obtain ⟨ho, h⟩ := Option.ite_none_right_eq_some.mp h
    exact act_moves ho h
  | go t => exact go_moves h
  | closed timedOut =>
    obtain ⟨hb, h⟩ := Option.ite_none_right_eq_some.mp h
    cases h
    rw [Bool.and_eq_true, Option.isNone_iff_eq_none] at hb
    exact .closed hb.1 hb.2
  | shutdown => exact stepShutdown_moves h
  | expire err =>
    simp only [step] at h
    split at h
    next hc =>
      obtain ⟨-, h⟩ := Option.ite_none_right_eq_some.mp h
      cases h
      exact .expire hc
    next => cases h
  | workerDone => exact endWait_moves nofun h
  | shutdownCh => exact endWait_moves nofun h
  | fatal err => exact endWait_moves nofun h
  | exit w =>
    obtain ⟨hw, h⟩ := Option.ite_none_right_eq_some.mp h
    cases h
    exact .exit hw
  | ctxDone => cases h; exact .ctxDone

end

end Runtime

end Microjet.Host
