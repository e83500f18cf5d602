import Mathlib.Logic.Function.Basic
import Microjet.Core.Go
import Microjet.Lib.Registry
import Microjet.Messaging.Propagation

/-!
# JetStream consumers (`messaging/jetstream/consumer.go`)

Two state machines: a client with its subscriptions and the consumers of the server behind
them, and one message that a consumer delivers, again and again if need be.

The server has this of the documentation of NATS: a consumer is known by its stream and its
name, and `CreateOrUpdateConsumer` replaces the configuration of one that exists; without a
durable name, the client library makes up a name; a consumer delivers the messages that its
filter matches to any of its callbacks, each at most `MaxDeliver` times, and not once it is
acknowledged or terminated. What the server answers is part of an event.
-/

namespace Microjet.JetStream

open Errorx Messaging

/-- `Config` -/
structure Config where
  durablePrefix : GoString := []
  ackWait : Int := 0
  maxDeliver : Int := 0
  maxAckPending : Int := 0
  deadLetterSubject : String := ""

/-- `sanitizeDurable` -/
def sanitizeDurable (s : GoString) : GoString :=
  s.map fun c => if c ∈ bytes ".*>/\\ \t" then 95 else c

/-- `durableName` -/
def Config.durableName (cfg : Config) (base : GoString) : GoString :=
  if cfg.durablePrefix ≠ [] then
    sanitizeDurable cfg.durablePrefix ++ bytes "_" ++ sanitizeDurable base
  else sanitizeDurable base

/-- `jetstream.ConsumerConfig`; the policy is always `AckExplicitPolicy`. -/
structure ConsumerConfig where
  durable : GoString
  filterSubject : GoString
  ackWait : Int
  maxDeliver : Int
  maxAckPending : Int

/-- `consumerConfig` -/
def Config.consumerConfig (cfg : Config) (subject durable : GoString) : ConsumerConfig where
  durable := durable
  filterSubject := subject
  ackWait := cfg.ackWait
  maxDeliver := cfg.maxDeliver
  maxAckPending := cfg.maxAckPending

/-! ## Subjects -/

/-- A subject is a sequence of tokens; in a filter `*` stands for one token, and `>` at the end
for one or more. -/
def matchTokens : List GoString → List GoString → Bool
  | [], [] => true
  | p :: ps, t :: ts =>
    if p = bytes ">" ∧ ps = [] then true
    else (p = bytes "*" || p = t) && matchTokens ps ts
  | _, _ => false

/-- The filter matches the subject. -/
def matchSubject (filter subject : GoString) : Bool :=
  matchTokens (split 46 filter) (split 46 subject)

/-- A subject without wildcards. -/
def literal (subject : GoString) : Bool :=
  (split 46 subject).all fun t => t ≠ [] ∧ t ≠ bytes "*" ∧ t ≠ bytes ">"

/-- Two filters that let the same messages through. -/
def SameMessages (p q : GoString) : Prop :=
  ∀ m, literal m = true → matchSubject p m = matchSubject q m

/-! ## Subscriptions -/

/-- A subscription. -/
structure Sub where
  id : Nat
  subject : GoString
  durable : GoString
  key : GoString × GoString
  active : Bool := false

/-- The consumers of the server and the subscriptions. -/
structure Client where
  consumers : GoString × GoString → Option ConsumerConfig := fun _ => none
  subs : List Sub := []
  failed : List (Nat × Err) := []

/-- A step, with the server's answers. -/
inductive Event where
  /-- `Subscribe`, or `QueueSubscribe` with a queue, up to the consumer: what
  `StreamNameBySubject` answers, the name made up, and the error of `CreateOrUpdateConsumer`,
  with whether it was done all the same. -/
  | subscribe (i : Nat) (subject : GoString) (queue : Option GoString)
      (stream : Except Err GoString) (generated : GoString) (create : Option (Err × Bool))
  | consume (i : Nat) (err : Option Err)
  | unsubscribe (i : Nat)
  | deliver (i : Nat) (subject : GoString)

/-- The error without a stream. -/
def noStream (subject : GoString) (err : Err) : Err :=
  (newInternalError "jetstream"
    "no stream bound to subject; declare it under [messaging.jetstream.streams]"
    [("subject", subject.text)]).withInner err

/-- The error without a consumer. -/
def createFailed (durable stream : GoString) (err : Err) : Err :=
  (newInternalError "jetstream" "create consumer failed"
    [("durable", durable.text), ("stream", stream.text)]).withInner err

/-- The error without a callback. -/
def consumeFailed (durable : GoString) (err : Err) : Err :=
  (newInternalError "jetstream" "consume failed" [("durable", durable.text)]).withInner err

namespace Client

variable (cfg : Config) (s : Client)

/-- Subscription `i`. -/
def sub (i : Nat) : Option Sub := Registry.get Sub.id s.subs i

/-- The durable name of a subscription. -/
def durable (subject : GoString) (queue : Option GoString) : GoString :=
  cfg.durableName (queue.getD subject)

/-- The stream and the name of its consumer. -/
def consumerKey (subject : GoString) (queue : Option GoString) (stream generated : GoString) :
    GoString × GoString :=
  (stream, if durable cfg subject queue = [] then generated else durable cfg subject queue)

/-- Subscription `i` has failed. -/
def fail (i : Nat) (err : Err) : Client := { s with failed := (i, err) :: s.failed }

/-- `CreateOrUpdateConsumer` -/
def createOrUpdateConsumer (key : GoString × GoString) (c : ConsumerConfig) : Client :=
  { s with consumers := Function.update s.consumers key (some c) }

/-- `Subscribe` and `QueueSubscribe`, up to the consumer. -/
def subscribe (i : Nat) (subject : GoString) (queue : Option GoString)
    (stream : Except Err GoString) (generated : GoString) (create : Option (Err × Bool)) :
    Option Client :=
  match stream with
  | .error err => some (s.fail i (noStream subject err))
  | .ok stream =>
    let durable := durable cfg subject queue
    let key := consumerKey cfg subject queue stream generated
    -- an empty subject is refused with the stream, and what is made up is new
    if subject = [] ∨ durable = [] ∧ (s.consumers key).isSome then none
    else
      let s' := s.createOrUpdateConsumer key (cfg.consumerConfig subject durable)
      match create with
      | none => some { s' with subs := ⟨i, subject, durable, key, false⟩ :: s.subs }
      | some (err, done) =>
        some ((if done then s' else s).fail i (createFailed durable stream err))

/-- `Consume` -/
def consume (i : Nat) (err : Option Err) : Option Client :=
  match s.sub i, err with
  | some sub, none =>
    if sub.active then none
    else some { s with subs := Registry.modify Sub.id s.subs i fun sub =>
      { sub with active := true } }
  | some sub, some err =>
    if sub.active then none
    else
      some ({ s with subs := Registry.remove Sub.id s.subs i }.fail i
        (consumeFailed sub.durable err))
  | none, _ => none

/-- The subscription may be given the subject. -/
def delivers (sub : Sub) (subject : GoString) : Bool :=
  sub.active && literal subject &&
    (s.consumers sub.key).any fun c => matchSubject c.filterSubject subject

/-- One step. -/
def step (s : Client) : Event → Option Client
  | .subscribe i subject queue stream generated create =>
    if (s.sub i).isSome then none
    else s.subscribe cfg i subject queue stream generated create
  | .consume i err => s.consume i err
  | .unsubscribe i =>
    match s.sub i with
    | some sub =>
      if sub.active then some { s with subs := Registry.remove Sub.id s.subs i } else none
    | none => some s
  | .deliver i subject =>
    if (s.sub i).any fun sub => s.delivers sub subject then some s else none

end Client

/-! ### The subscriptions of an application (`messaging/subscriber.go`) -/

/-- A subscriber that the app binds. -/
structure Binding where
  name : GoString
  subject : GoString
  queue : GoString := []

/-- The server's answers for one binding. -/
structure Answers where
  stream : Except Err GoString
  generated : GoString := []
  create : Option (Err × Bool) := none
  consume : Option Err := none

/-- The error of a binding. -/
def Binding.failure (b : Binding) (err : Err) : Err :=
  (newInternalError "messaging" "subscribing failed"
    [("subscriber", b.name.text), ("subject", b.subject.text)]).withInner err

/-- `consumerService.Start`, with one number for each binding. -/
def start (cfg : Config) : Client → List (Nat × Binding × Answers) → Option (Client × Option Err)
  | s, [] => some (s, none)
  | s, (i, b, a) :: rest => do
      let queue := if b.queue ≠ [] then some b.queue else none
      let s ← Client.step cfg s (.subscribe i b.subject queue a.stream a.generated a.create)
      match s.failed.lookup i with
      | some err => some (s, some (b.failure err))
      | none =>
        let s ← Client.step cfg s (.consume i a.consume)
        match s.failed.lookup i with
        | some err => some (s, some (b.failure err))
        | none => start cfg s rest

/-! ## The handling of a message -/

/-- What a handler asks of the server. -/
inductive Request where
  | ack
  | nak
  | term
  | publish (m : WireMsg)
  deriving DecidableEq

/-- The copy for the dead-letter subject. -/
def Config.deadCopy (cfg : Config) (msg : Message) : WireMsg where
  subject := cfg.deadLetterSubject
  data := msg.data
  header := setHeader (toNATSHeader msg.headers) "X-Original-Subject" msg.subject

/-- `deadLetter` -/
def deadLetter (cfg : Config) (msg : Message) : List Request :=
  if cfg.deadLetterSubject = "" then [] else [.publish (cfg.deadCopy msg)]

/-- `deliveryCount` -/
def deliveryCount (metadata : Option Nat) : Int := (metadata.getD 0 : Nat)

/-- `nakOrTerminate` -/
def nakOrTerminate (cfg : Config) (metadata : Option Nat) (msg : Message) : List Request :=
  if cfg.maxDeliver > 0 ∧ deliveryCount metadata ≥ cfg.maxDeliver then
    deadLetter cfg msg ++ [.term]
  else [.nak]

/-- The requests made after the handler; an error of one of them is only logged. -/
def handleMessage (cfg : Config) (metadata : Option Nat) (msg : Message) :
    Option Err → List Request
  | some _ => nakOrTerminate cfg metadata msg
  | none => [.ack]

/-- A delivery that is being handled. -/
structure Attempt where
  id : Nat
  number : Nat
  metadata : Option Nat
  /-- The requests still to be made; none while the handler runs. -/
  todo : Option (List Request) := none

/-- One message at the server. -/
structure Delivery where
  delivered : Nat := 0
  settled : Bool := false
  attempts : List Attempt := []
  handled : Bool := false
  dead : List WireMsg := []

namespace Delivery

/-- A step of its delivery. -/
inductive Event where
  | deliver (i : Nat) (metadata : Bool)
  | handled (i : Nat) (err : Option Err)
  | request (i : Nat) (accepted : Bool)
  /-- The client crashes, or whatever else ends its work on this delivery. -/
  | crash (i : Nat)

/-- Attempt `i`. -/
def attempt (s : Delivery) (i : Nat) : Option Attempt := Registry.get Attempt.id s.attempts i

/-- Whether the server will still deliver the message, at once or when `AckWait` is over. -/
def redelivers (consumer : ConsumerConfig) (s : Delivery) : Bool :=
  !s.settled && (consumer.maxDeliver ≤ 0 || s.delivered < consumer.maxDeliver)

/-- The server accepts a request. -/
def accept (s : Delivery) : Request → Delivery
  | .ack | .term => { s with settled := true }
  | .nak => s
  | .publish m => { s with dead := m :: s.dead }

/-- What attempt `i` has still to ask. -/
def setTodo (s : Delivery) (i : Nat) (todo : List Request) : Delivery :=
  { s with attempts := Registry.modify Attempt.id s.attempts i fun a =>
    { a with todo := some todo } }

/-- One step. -/
def step (cfg : Config) (consumer : ConsumerConfig) (msg : Message) (s : Delivery) :
    Event → Option Delivery
  | .deliver i metadata =>
    if s.redelivers consumer ∧ (s.attempt i).isNone then
      let n := s.delivered + 1
      some { s with
        delivered := n
        attempts := { id := i, number := n, metadata := if metadata then some n else none } ::
          s.attempts }
    else none
  | .handled i err =>
    (s.attempt i).bind fun a =>
      if a.todo.isSome then none
      else some { s.setTodo i (handleMessage cfg a.metadata msg err) with
        handled := s.handled || err.isNone }
  | .request i accepted =>
    (s.attempt i).bind fun a =>
      match a.todo with
      | some (r :: rest) =>
        let s := s.setTodo i rest
        some (if accepted then s.accept r else s)
      | _ => none
  | .crash i =>
    (s.attempt i).map fun _ =>
      { s with attempts := Registry.remove Attempt.id s.attempts i }

end Delivery

end Microjet.JetStream
