import Microjet.Host.App

/-!
# Start, Wait, Shutdown and Close (`host/runtime.go`, `host/workers.go`)

A `Runtime` is an app with the goroutines that call it, the bodies of the four entries and the
workers. Each step is one of them going on by one action, in any order.

The body of a `sync.Once` is a goroutine of its own here, and its first caller waits like the
others: whoever calls an entry has an `await` on top of its stack until the body is over. A
hook that calls the one it is running in waits forever, as it does in Go.

While a hook or a setup handler is running it may do anything a hook can do to an app (`Act`),
and then return an error or nil. The log is for what is said about runs; nothing reads it.
-/

namespace Microjet.Host

open Errorx

/-- The four entries. -/
inductive Entry where
  | start
  | wait
  | shutdown
  | close
  deriving DecidableEq, Repr

/-- A goroutine in code from outside the host: a caller, or the body of `Start` or of `Close`. -/
inductive Thread where
  | caller (n : Nat)
  | start
  | close
  deriving DecidableEq, Repr

/-- What is on the stack of a goroutine, on top of where it began. -/
inductive Frame (H : Type) where
  | handler (h : H)
  | drain
  /-- In the `Do` of the entry's `sync.Once`. -/
  | await (e : Entry)
  deriving DecidableEq, Repr

/-- A worker, or a service that runs as one. -/
inductive Worker (I W : Type) where
  | named (w : W)
  | service (i : I)
  deriving DecidableEq, Repr

/-- An entry of the log. -/
inductive Note (K I H W : Type) where
  | provided (k : K) (i : I)
  /-- A pass of `initServices` takes up a key. Passes are numbered. -/
  | visited (pass : Nat) (p : Phase) (k : K) (i : I)
  | called (p : Phase) (k : K) (i : I)
  | returned (p : Phase) (k : K) (i : I) (err : Option Err)
  | handlerStarted (h : H)
  | handlerReturned (h : H) (err : Option Err)
  | launched (w : Worker I W)
  | answered (e : Entry) (err : Option Err)
  deriving DecidableEq, Repr

/-! ### The bodies -/

/-- The two passes of `initServices`. -/
inductive Pass where
  | config
  | init
  deriving DecidableEq, Repr

/-- The phase of a pass. -/
def Pass.phase : Pass → Phase
  | .config => .config
  | .init => .init

/-- Where `initServices` is. -/
structure Round (K : Type) where
  number : Nat
  pass : Pass
  todo : List K
  progressed : Bool
  configured : List K
  initialized : List K

namespace Round

variable {K : Type} [DecidableEq K]

/-- Its first pass. -/
def first (keys : List K) : Round K := ⟨0, .config, keys, false, [], []⟩

/-- The pass has to call this key. -/
def due (r : Round K) (k : K) : Bool :=
  match r.pass with
  | .config => k ∉ r.configured
  | .init => k ∉ r.initialized && k ∈ r.configured

/-- The pass has called it. -/
def mark (r : Round K) (k : K) : Round K :=
  match r.pass with
  | .config => { r with progressed := true, configured := k :: r.configured }
  | .init => { r with progressed := true, initialized := k :: r.initialized }

/-- The next pass, unless both passes of a round found nothing to do. -/
def next (r : Round K) (keys : List K) : Option (Round K) :=
  match r.pass with
  | .config => some { r with number := r.number + 1, pass := .init, todo := keys }
  | .init =>
    if r.progressed then
      some { r with number := r.number + 1, pass := .config, todo := keys, progressed := false }
    else none

end Round

/-- Where the body of `Start` is. A phase has the hook or handler that is running. -/
inductive Starting (K I H W : Type) where
  | fresh
  | called
  | initing (r : Round K) (busy : Option (K × I))
  | setting (todo : List K) (busy : Option (K × I))
  | draining (busy : Option H)
  | starting (todo : List K) (busy : Option (K × I))
  /-- `startWorkers`, and the workers it has yet to launch. -/
  | launching (todo : List W)
  | gathering (todo : List K) (found : List I)
  | launchingServices (todo : List I)
  | merging
  /-- A phase has failed and `Close` has been called. -/
  | failing (err : Err)
  | done (err : Option Err)

namespace Starting

variable {K I H W : Type}

/-- A hook is running. -/
def busy : Starting K I H W → Bool
  | .initing _ busy => busy.isSome
  | .setting _ busy => busy.isSome
  | .draining busy => busy.isSome
  | .starting _ busy => busy.isSome
  | _ => false

/-- `Start` is called. -/
def enter : Starting K I H W → Starting K I H W
  | .fresh => .called
  | c => c

end Starting

/-- Where the body of `Close` is. -/
inductive Closing (K I : Type) where
  | fresh
  | spawned
  | collecting (todo : List K) (entries : List (K × I))
  | closing (todo : List (K × I)) (busy : Option (K × I))
  | finished

namespace Closing

variable {K I : Type}

/-- A hook is running. -/
def busy : Closing K I → Bool
  | .closing _ busy => busy.isSome
  | _ => false

/-- Whether `close` may return, with `closeServices` or at the timeout. -/
def ended (timedOut : Bool) : Closing K I → Bool
  | .fresh => false
  | .finished => true
  | _ => timedOut

/-- `Close` is called. -/
def enter : Closing K I → Closing K I
  | .fresh => .spawned
  | c => c

end Closing

/-- Where the body of `Shutdown` is. -/
inductive ShuttingDown where
  | fresh
  | draining
  | waiting
  | closing (err : Option Err)
  | done (err : Option Err)
  deriving DecidableEq, Repr

/-- `Shutdown` is called. -/
def ShuttingDown.enter : ShuttingDown → ShuttingDown
  | .fresh => .draining
  | c => c

/-- Where the body of `Wait` is; it selects on the channels that were there. -/
inductive Waiting where
  | fresh
  | waiting (workerDone fatalCh : Bool)
  | done (err : Option Err)
  deriving DecidableEq, Repr

/-- `Wait` is called. -/
def Waiting.enter (workerDone fatalCh : Bool) : Waiting → Waiting
  | .fresh => .waiting workerDone fatalCh
  | c => c

/-- An app with everything that runs. -/
structure Runtime (K I H W : Type) where
  app : App K I H W := {}
  stack : Thread → List (Frame H) := fun _ => []
  start : Starting K I H W := .fresh
  close : Closing K I := .fresh
  /-- `close` has returned, after a timeout or not. -/
  closed : Option Bool := none
  shutdown : ShuttingDown := .fresh
  wait : Waiting := .fresh
  live : List (Worker I W) := []
  cancelled : Bool := false
  ctxDone : Bool := false
  log : List (Note K I H W) := []

/-- What code outside the host may call. -/
inductive Act (K I H W : Type) where
  | provide (k : K) (i : I)
  /-- `Setup`; without an argument the handlers are nil. -/
  | setup (handlers : Option (List H))
  | withWorker (w : W)
  /-- `Configure`, `WithProvider` or `WithModule` record an error. -/
  | fail (err : Err)
  | call (e : Entry)
  | ret (err : Option Err)

/-- A step. -/
inductive Event (K I H W : Type) where
  | act (t : Thread) (a : Act K I H W)
  | go (t : Thread)
  /-- `close` returns, since `closeServices` has or since the timeout has expired. -/
  | closed (timedOut : Bool)
  | shutdown
  | expire (err : Err)
  /-- `Wait` is over: the worker context, `Shutdown`, or a service. -/
  | workerDone
  | shutdownCh
  | fatal (err : Option Err)
  | exit (w : Worker I W)
  | ctxDone

namespace Runtime

variable {K I H W : Type}

/-- An entry of the log. -/
def note (s : Runtime K I H W) (n : Note K I H W) : Runtime K I H W :=
  { s with log := n :: s.log }

/-- The stack of goroutine `t`. -/
def setStack (s : Runtime K I H W) (t : Thread) (fs : List (Frame H)) : Runtime K I H W :=
  { s with stack := Function.update s.stack t fs }

/-- An entry is called. -/
def enter (s : Runtime K I H W) : Entry → Runtime K I H W
  | .start => { s with start := s.start.enter }
  | .wait => { s with wait := s.wait.enter s.app.workerCtx s.app.fatalCh }
  | .shutdown => { s with shutdown := s.shutdown.enter }
  | .close => { s with close := s.close.enter }

/-- What an entry returns, once its body is over. -/
def answer (s : Runtime K I H W) : Entry → Option (Option Err)
  | .start =>
    match s.start with
    | .done err => some err
    | _ => none
  | .wait =>
    match s.wait with
    | .done err => some err
    | _ => none
  | .shutdown =>
    match s.shutdown with
    | .done err => some err
    | _ => none
  | .close => s.closed.map fun _ => none

/-- Goroutine `t` is in code outside the host. -/
def outside (s : Runtime K I H W) (t : Thread) : Bool :=
  match s.stack t with
  | .handler _ :: _ => true
  | [] =>
    match t with
    | .caller _ => true
    | .start => s.start.busy
    | .close => s.close.busy
  | _ => false

/-! ### Code from outside -/

/-- `Setup` -/
def setup (s : Runtime K I H W) (t : Thread) : Option (List H) → Runtime K I H W
  | none => s
  | some handlers =>
    if s.app.err.isSome then s
    else
      let s := { s with app := { s.app with setups := s.app.setups ++ handlers } }
      if s.app.isServiceInitialized then s.setStack t (.drain :: s.stack t) else s

/-- A phase of `start` fails: `Close`, and then the error is returned. -/
def failStart (s : Runtime K I H W) (err : Err) : Runtime K I H W :=
  { s.enter .close with start := .failing err }

/-- The error of a phase. -/
def phaseError (message : String) (err : Err) : Err :=
  (newInternalError "host" message).withInner err

/-- A hook of `Start` returns. -/
def resumeStart (s : Runtime K I H W) (err : Option Err) : Option (Runtime K I H W) :=
  match s.start with
  | .initing r (some (k, i)) =>
    let s := s.note (.returned r.pass.phase k i err)
    some (match err with
      | none => { s with start := .initing r none }
      | some e => s.failStart (phaseError "initializing services" e))
  | .setting todo (some (k, i)) =>
    let s := s.note (.returned .setup k i err)
    some (match err with
      | none => { s with start := .setting todo none }
      | some e => s.failStart (phaseError "setting up services" e))
  | .draining (some h) =>
    let s := s.note (.handlerReturned h err)
    some (match err with
      | none => { s with start := .draining none }
      | some e => s.failStart (phaseError "running setup" e))
  | .starting todo (some (k, i)) =>
    let s := s.note (.returned .start k i err)
    some (match err with
      | none => { s with start := .starting todo none }
      | some e => s.failStart (phaseError "starting services" e))
  | _ => none

/-- A hook of `Close` returns. -/
def resumeClose (s : Runtime K I H W) (err : Option Err) : Option (Runtime K I H W) :=
  match s.close with
  | .closing todo (some (k, i)) =>
    some { s.note (.returned .close k i err) with close := .closing todo none }
  | _ => none

/-- A hook or a handler returns. -/
def ret (s : Runtime K I H W) (t : Thread) (err : Option Err) : Option (Runtime K I H W) :=
  match s.stack t with
  | .handler h :: .drain :: rest =>
    let s := s.note (.handlerReturned h err)
    some (match err with
      | none => s.setStack t (.drain :: rest)
      | some e => { s with app := s.app.fail e }.setStack t rest)
  | [] =>
    match t with
    | .caller _ => none
    | .start => s.resumeStart err
    | .close => s.resumeClose err
  | _ => none

/-- A call by code outside the host. -/
def act [DecidableEq K] (s : Runtime K I H W) (t : Thread) :
    Act K I H W → Option (Runtime K I H W)
  | .provide k i => some ({ s with app := s.app.storeKey k i }.note (.provided k i))
  | .setup handlers => some (s.setup t handlers)
  | .withWorker w => some { s with app := s.app.withWorker w }
  | .fail err => some { s with app := s.app.fail err }
  | .call e => some ((s.enter e).setStack t (.await e :: s.stack t))
  | .ret err => s.ret t err

/-! ### The host's code -/

/-- `setupServices` begins. -/
def beginSetup (s : Runtime K I H W) : Runtime K I H W :=
  if s.app.isServiceSetup then { s with start := .draining none }
  else { s with start := .setting s.app.container.keys none }

/-- `startServices` begins. -/
def beginStart (s : Runtime K I H W) : Runtime K I H W :=
  if s.app.isServiceStarted then
    { s with app := { s.app with workerCtx := true }, start := .launching s.app.workers }
  else { s with start := .starting s.app.container.keys none }

variable [DecidableEq K] [DecidableEq I] [DecidableEq W] (svc : I → Service)

/-- One key of `initServices`. -/
def stepInit (s : Runtime K I H W) (r : Round K) : Runtime K I H W :=
  match r.todo with
  | k :: todo =>
    match s.app.container.load k with
    | none => { s with start := .initing { r with todo } none }
    | some i =>
      if r.due k then
        let s := s.note (.visited r.number r.pass.phase k i)
        if (svc i).has r.pass.phase then
          { s.note (.called r.pass.phase k i) with
            start := .initing { r.mark k with todo } (some (k, i)) }
        else { s with start := .initing { r.mark k with todo } none }
      else { s with start := .initing { r with todo } none }
  | [] =>
    match r.next s.app.container.keys with
    | some r => { s with start := .initing r none }
    | none => { s with app := { s.app with isServiceInitialized := true } }.beginSetup

/-- One key of another walk. -/
def stepWalk (s : Runtime K I H W) (p : Phase) (k : K)
    (at_ : Option (K × I) → Starting K I H W) : Runtime K I H W :=
  match s.app.container.load k with
  | none => { s with start := at_ none }
  | some i =>
    if (svc i).has p then { s.note (.called p k i) with start := at_ (some (k, i)) }
    else { s with start := at_ none }

/-- A worker is started. -/
def launch (s : Runtime K I H W) (w : Worker I W) : Runtime K I H W :=
  { s.note (.launched w) with live := w :: s.live }

/-- The body of `Start` goes on. -/
def stepStart (s : Runtime K I H W) : Option (Runtime K I H W) :=
  match s.start with
  | .called =>
    some (match s.app.err with
      | some err => s.failStart err
      | none =>
        if s.app.isServiceInitialized then s.beginSetup
        else { s with start := .initing (.first s.app.container.keys) none })
  | .initing r none => some (s.stepInit svc r)
  | .setting (k :: todo) none => some (s.stepWalk svc .setup k (.setting todo))
  | .setting [] none =>
    some { s with app := { s.app with isServiceSetup := true }, start := .draining none }
  | .draining none =>
    some (match s.app.setups with
      | h :: setups =>
        { s.note (.handlerStarted h) with
          app := { s.app with setups }
          start := .draining (some h) }
      | [] => s.beginStart)
  | .starting (k :: todo) none => some (s.stepWalk svc .start k (.starting todo))
  | .starting [] none =>
    some { s with
      app := { s.app with isServiceStarted := true, workerCtx := true }
      start := .launching s.app.workers }
  | .launching (w :: todo) => some { s.launch (.named w) with start := .launching todo }
  | .launching [] => some { s with start := .gathering s.app.container.keys [] }
  | .gathering (k :: todo) found =>
    some { s with
      start := .gathering todo (match s.app.container.load k with
        | none => found
        | some i =>
          if (svc i).worker && !((svc i).comparable && i ∈ found) then found ++ [i]
          else found) }
  | .gathering [] found => some { s with start := .launchingServices found }
  | .launchingServices (i :: todo) =>
    some { s.launch (.service i) with start := .launchingServices todo }
  | .launchingServices [] =>
    some { s with app := { s.app with workerWg := true }, start := .merging }
  | .merging =>
    some { s with app := { s.app with fatalCh := s.app.fatalErrCh svc }, start := .done none }
  | .failing err => if s.closed.isSome then some { s with start := .done (some err) } else none
  | _ => none

/-- The body of `Close` goes on. -/
def stepClose (s : Runtime K I H W) : Option (Runtime K I H W) :=
  match s.close with
  | .spawned => some { s with close := .collecting s.app.container.keys [] }
  | .collecting (k :: todo) entries =>
    some { s with
      close := .collecting todo (match s.app.container.load k with
        | none => entries
        | some i => entries ++ [(k, i)]) }
  | .collecting [] entries => some { s with close := .closing (closeSequence svc entries) none }
  | .closing ((k, i) :: todo) none =>
    some (if (svc i).has .close then
      { s.note (.called .close k i) with close := .closing todo (some (k, i)) }
    else { s with close := .closing todo none })
  | .closing [] none => some { s with close := .finished }
  | _ => none

/-- Goroutine `t` goes on. -/
def go (s : Runtime K I H W) (t : Thread) : Option (Runtime K I H W) :=
  match s.stack t with
  | .drain :: rest =>
    some (match s.app.setups with
      | h :: setups =>
        { s.note (.handlerStarted h) with app := { s.app with setups } }.setStack t
          (.handler h :: .drain :: rest)
      | [] => s.setStack t rest)
  | .await e :: rest =>
    (s.answer e).map fun err => (s.note (.answered e err)).setStack t rest
  | .handler _ :: _ => none
  | [] =>
    match t with
    | .caller _ => none
    | .start => s.stepStart svc
    | .close => s.stepClose svc

/-- The body of `Shutdown` goes on. -/
def stepShutdown (s : Runtime K I H W) : Option (Runtime K I H W) :=
  match s.shutdown with
  | .draining =>
    some { s with cancelled := s.cancelled || s.app.workerCtx, shutdown := .waiting }
  | .waiting =>
    if s.app.workerWg = false ∨ s.live = [] then
      some { s.enter .close with shutdown := .closing none }
    else none
  | .closing err => if s.closed.isSome then some { s with shutdown := .done err } else none
  | _ => none

/-- A case of the select of `Wait`. -/
def endWait (s : Runtime K I H W) (ready : Bool → Bool → Bool) (err : Option Err) :
    Option (Runtime K I H W) :=
  match s.wait with
  | .waiting workerDone fatalCh =>
    if ready workerDone fatalCh then some { s with wait := .done err } else none
  | _ => none

/-- One step. -/
def step (s : Runtime K I H W) : Event K I H W → Option (Runtime K I H W)
  | .act t a => if s.outside t then s.act t a else none
  | .go t => s.go svc t
  | .closed timedOut =>
    if s.closed.isNone && s.close.ended timedOut then some { s with closed := some timedOut }
    else none
  | .shutdown => s.stepShutdown
  | .expire err =>
    match s.shutdown with
    | .waiting =>
      if s.app.workerWg then some { s.enter .close with shutdown := .closing (some err) }
      else none
    | _ => none
  | .workerDone => s.endWait (fun workerDone _ => workerDone && (s.cancelled || s.ctxDone)) none
  | .shutdownCh => s.endWait (fun _ _ => s.shutdown ≠ .fresh) none
  | .fatal err => s.endWait (fun _ fatalCh => fatalCh) err
  | .exit w => if w ∈ s.live then some { s with live := s.live.erase w } else none
  | .ctxDone => some { s with ctxDone := true }

end Runtime

end Microjet.Host
