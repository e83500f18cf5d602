import Microjet.Lib.Run
import Microjet.Messaging.JetStream

/-!
# What becomes of a message

After the last delivery nobody comes back to a message. But a publish that fails is logged and
the message terminated all the same, a crash leaves it to a server that is done with it, and
without metadata the last delivery looks like the first one (`message_lost`).
-/

namespace Microjet.JetStream.Delivery

open Errorx Messaging

variable {cfg : Config} {consumer : ConsumerConfig} {msg : Message} {s s' : Delivery}

/-- It was handled, or its copy accepted. -/
def Saved (cfg : Config) (msg : Message) (s : Delivery) : Prop :=
  s.handled = true ∨ cfg.deadCopy msg ∈ s.dead

/-- The attempt may still save it. -/
def Pending (cfg : Config) (msg : Message) (a : Attempt) : Prop :=
  a.todo = none ∨ a.todo = some [.publish (cfg.deadCopy msg), .term]

/-- It is saved, in hand, or will be delivered again. -/
def Kept (cfg : Config) (consumer : ConsumerConfig) (msg : Message) (s : Delivery) : Prop :=
  Saved cfg msg s ∨ s.redelivers consumer = true ∨
    ∃ a ∈ s.attempts, (a.number : Int) = cfg.maxDeliver ∧ Pending cfg msg a

/-- The step does none of these to the last delivery. -/
def LastSafe (cfg : Config) (msg : Message) (s : Delivery) : Event → Prop
  | .deliver _ metadata => ((s.delivered + 1 : Nat) : Int) = cfg.maxDeliver →
      metadata = true ∨ Saved cfg msg s
  | .handled _ _ => True
  | .request i accepted => ∀ a m rest, s.attempt i = some a →
      a.todo = some (.publish m :: rest) → accepted = true ∨ Saved cfg msg s
  | .crash i => ∀ a, s.attempt i = some a → (a.number : Int) = cfg.maxDeliver → Saved cfg msg s

/-- The steps, as a relation. -/
inductive Moves (cfg : Config) (consumer : ConsumerConfig) (msg : Message) (s : Delivery) :
    Event → Delivery → Prop
  | delivered (i : Nat) (metadata : Bool) (hre : s.redelivers consumer = true)
      (hi : s.attempt i = none) :
      Moves cfg consumer msg s (.deliver i metadata)
        { s with
          delivered := s.delivered + 1
          attempts := ⟨i, s.delivered + 1, if metadata then some (s.delivered + 1) else none,
            none⟩ :: s.attempts }
  | handled (i : Nat) (err : Option Err) (a : Attempt) (ha : s.attempt i = some a)
      (htodo : a.todo = none) :
      Moves cfg consumer msg s (.handled i err)
        { s.setTodo i (handleMessage cfg a.metadata msg err) with
          handled := s.handled || err.isNone }
  | request (i : Nat) (accepted : Bool) (a : Attempt) (r : Request) (rest : List Request)
      (ha : s.attempt i = some a) (htodo : a.todo = some (r :: rest)) :
      Moves cfg consumer msg s (.request i accepted)
        (if accepted then (s.setTodo i rest).accept r else s.setTodo i rest)
  | crashed (i : Nat) (a : Attempt) (ha : s.attempt i = some a) :
      Moves cfg consumer msg s (.crash i)
        { s with attempts := Registry.remove Attempt.id s.attempts i }

theorem moves {e : Event} (h : step cfg consumer msg s e = some s') :
    Moves cfg consumer msg s e s' := by
  cases e with
  | deliver i metadata =>
    obtain ⟨⟨hre, hi⟩, h⟩ := Option.ite_none_right_eq_some.mp h
    cases h
    exact .delivered i metadata hre (Option.isNone_iff_eq_none.mp hi)
  | handled i err =>
    obtain ⟨a, ha, h⟩ := Option.bind_eq_some_iff.mp h
    obtain ⟨htodo, h⟩ := Option.ite_none_left_eq_some.mp h
    cases h
    exact .handled i err a ha (Option.not_isSome_iff_eq_none.mp htodo)
  | request i accepted =>
    obtain ⟨a, ha, h⟩ := Option.bind_eq_some_iff.mp h
    split at h
    next r rest htodo =>
      cases h
      exact .request i accepted a r rest ha htodo
    next => cases h
  | crash i =>
    obtain ⟨a, ha, h⟩ := Option.map_eq_some_iff.mp h
    cases h
    exact .crashed i a ha

/-! ### The invariant -/

/-- What an attempt still has to do. The last one must not end without the message being
saved. -/
inductive Plan (cfg : Config) (msg : Message) (saved : Prop) (a : Attempt) : Prop
  | running (htodo : a.todo = none)
      (hcount : a.metadata = some a.number ∨
        a.metadata = none ∧ ((a.number : Int) = cfg.maxDeliver → saved))
  | dying (htodo : a.todo = some [.publish (cfg.deadCopy msg), .term])
  | settling (todo : List Request) (htodo : a.todo = some todo)
      (hshape : todo = [.ack] ∨ todo = [.term]) (hsaved : saved)
  | retrying (todo : List Request) (htodo : a.todo = some todo)
      (hshape : todo = [.nak] ∨ todo = [])
      (hlast : (a.number : Int) = cfg.maxDeliver → saved)

/-- The invariant. -/
structure Inv (cfg : Config) (msg : Message) (s : Delivery) : Prop where
  distinct : Registry.Distinct Attempt.id s.attempts
  limit : (s.delivered : Int) ≤ cfg.maxDeliver
  number : ∀ a ∈ s.attempts, a.number ≤ s.delivered
  plan : ∀ a ∈ s.attempts, Plan cfg msg (Saved cfg msg s) a
  settled : s.settled = true → Saved cfg msg s
  last : (s.delivered : Int) = cfg.maxDeliver →
    Saved cfg msg s ∨ ∃ a ∈ s.attempts, (a.number : Int) = cfg.maxDeliver

variable {a : Attempt}

theorem Plan.imp {saved saved' : Prop} (h : Plan cfg msg saved a) (himp : saved → saved') :
    Plan cfg msg saved' a := by
  cases h with
  | running htodo hcount =>
    exact .running htodo (hcount.imp_right fun h => ⟨h.1, fun hlast => himp (h.2 hlast)⟩)
  | dying htodo => exact .dying htodo
  | settling todo htodo hshape hsaved => exact .settling todo htodo hshape (himp hsaved)
  | retrying todo htodo hshape hlast =>
    exact .retrying todo htodo hshape fun h => himp (hlast h)

theorem Plan.pending {saved : Prop} (h : Plan cfg msg saved a)
    (hlast : (a.number : Int) = cfg.maxDeliver) : saved ∨ Pending cfg msg a := by
  cases h with
  | running htodo _ => exact .inr (.inl htodo)
  | dying htodo => exact .inr (.inr htodo)
  | settling _ _ _ hsaved => exact .inl hsaved
  | retrying _ _ _ hsaved => exact .inl (hsaved hlast)

variable {subject durable : GoString}

theorem Inv.kept (h : Inv cfg msg s) :
    Kept cfg (cfg.consumerConfig subject durable) msg s := by
  by_cases hlast : (s.delivered : Int) = cfg.maxDeliver
  · obtain hsaved | ⟨a, ha, hnumber⟩ := h.last hlast
    · exact .inl hsaved
    · exact ((h.plan a ha).pending hnumber).imp_right fun hp => .inr ⟨a, ha, hnumber, hp⟩
  · cases hsettled : s.settled with
    | true => exact .inl (h.settled hsettled)
    | false =>
      have hlimit := h.limit
      have hlt : (s.delivered : Int) < cfg.maxDeliver := by omega
      refine .inr (.inl ?_)
      rw [redelivers, hsettled, Bool.not_false, Bool.true_and, Bool.or_eq_true]
      exact .inr (decide_eq_true hlt)

variable {i : Nat}

theorem Inv.attempt_eq {a b : Attempt} (h : Inv cfg msg s) (ha : s.attempt i = some a)
    (hb : b ∈ s.attempts) (hid : b.id = i) : b = a :=
  h.distinct.eq hb (Registry.get_mem ha) (hid.trans (Registry.get_id ha).symm)

theorem Inv.advance {todo : List Request} {settled handled : Bool} {dead : List WireMsg}
    (h : Inv cfg msg s) (ha : s.attempt i = some a)
    (himp : Saved cfg msg s → handled = true ∨ cfg.deadCopy msg ∈ dead)
    (hplan : Plan cfg msg (handled = true ∨ cfg.deadCopy msg ∈ dead) { a with todo := some todo })
    (hsettled : settled = true → handled = true ∨ cfg.deadCopy msg ∈ dead) :
    Inv cfg msg { s.setTodo i todo with settled := settled, handled := handled, dead := dead } := by
  refine ⟨h.distinct.modify fun _ => rfl, h.limit, ?_, ?_, hsettled, fun hlast => ?_⟩
  · intro b hb
    obtain ⟨hold, -⟩ | ⟨old, hold, -, rfl⟩ := Registry.mem_modify.mp hb
    · exact h.number b hold
    · exact h.number old hold
  · intro b hb
    obtain ⟨hold, -⟩ | ⟨old, hold, hid, rfl⟩ := Registry.mem_modify.mp hb
    · exact (h.plan b hold).imp himp
    · obtain rfl : old = a := h.attempt_eq ha hold hid
      exact hplan
  · refine (h.last hlast).imp himp ?_
    rintro ⟨b, hb, hnumber⟩
    by_cases hid : b.id = i
    · exact ⟨_, Registry.mem_modify.mpr (.inr ⟨b, hb, hid, rfl⟩), hnumber⟩
    · exact ⟨b, Registry.mem_modify.mpr (.inl ⟨hb, hid⟩), hnumber⟩

theorem handleMessage_plan {saved saved' : Prop} {err : Option Err} (hmax : 0 < cfg.maxDeliver)
    (hdlq : cfg.deadLetterSubject ≠ "")
    (hcount : a.metadata = some a.number ∨
      a.metadata = none ∧ ((a.number : Int) = cfg.maxDeliver → saved))
    (himp : saved → saved') (hok : err = none → saved') :
    Plan cfg msg saved' { a with todo := some (handleMessage cfg a.metadata msg err) } := by
  cases err with
  | none => exact .settling _ rfl (.inl rfl) (hok rfl)
  | some err =>
    show Plan cfg msg saved' { a with todo := some (nakOrTerminate cfg a.metadata msg) }
    rw [nakOrTerminate]
    split
    next =>
      rw [deadLetter, if_neg hdlq]
      exact .dying rfl
    next hfew =>
      refine .retrying _ rfl (.inl rfl) fun hlast => ?_
      rcases hcount with hmeta | ⟨-, hsaved⟩
      · -- the client sees the count of the server
        rw [hmeta] at hfew
        exact absurd ⟨hmax, hlast.ge⟩ hfew
      · exact himp (hsaved hlast)

theorem redelivers_lt (hmax : 0 < cfg.maxDeliver)
    (h : s.redelivers (cfg.consumerConfig subject durable) = true) :
    (s.delivered : Int) < cfg.maxDeliver := by
  rw [redelivers, Bool.and_eq_true, Bool.or_eq_true] at h
  rcases h.2 with hzero | hlt
  · have hle : cfg.maxDeliver ≤ 0 := of_decide_eq_true hzero
    omega
  · exact of_decide_eq_true hlt

theorem Inv.request {accepted : Bool} {r : Request} {rest : List Request} (h : Inv cfg msg s)
    (hC : LastSafe cfg msg s (.request i accepted)) (ha : s.attempt i = some a)
    (htodo : a.todo = some (r :: rest)) :
    Inv cfg msg (if accepted then (s.setTodo i rest).accept r else s.setTodo i rest) := by
  cases h.plan a (Registry.get_mem ha) with
  | running hrunning _ =>
    rw [htodo] at hrunning
    cases hrunning
  | dying hdying =>
    rw [htodo] at hdying
    cases hdying
    cases accepted with
    | true =>
      have hcopy : cfg.deadCopy msg ∈ cfg.deadCopy msg :: s.dead := List.mem_cons_self
      exact h.advance ha (fun _ => .inr hcopy) (.settling _ rfl (.inr rfl) (.inr hcopy))
        fun _ => .inr hcopy
    | false =>
      have hsaved := (hC a _ _ ha htodo).resolve_left nofun
      exact h.advance ha id (.settling _ rfl (.inr rfl) hsaved) h.settled
  | settling todo hsettling hshape hsaved =>
    rw [htodo] at hsettling
    cases hsettling
    -- whatever comes of the request, the message is saved
    rcases hshape with hshape | hshape <;> cases hshape <;> cases accepted <;>
      exact h.advance ha id (.retrying _ rfl (.inr rfl) fun _ => hsaved) fun _ => hsaved
  | retrying todo hretrying hshape hlast =>
    rw [htodo] at hretrying
    cases hretrying
    rcases hshape with hshape | hshape <;> cases hshape
    cases accepted <;> exact h.advance ha id (.retrying _ rfl (.inr rfl) hlast) h.settled

theorem Inv.step {e : Event} (hmax : 0 < cfg.maxDeliver) (hdlq : cfg.deadLetterSubject ≠ "")
    (h : Inv cfg msg s) (hC : LastSafe cfg msg s e)
    (hstep : step cfg (cfg.consumerConfig subject durable) msg s e = some s') :
    Inv cfg msg s' := by
  cases moves hstep with
  | delivered i metadata hre hi =>
    have hlt := redelivers_lt hmax hre
    refine ⟨h.distinct.cons hi, ?_, ?_, ?_, h.settled,
      fun hlast => .inr ⟨_, List.mem_cons_self, hlast⟩⟩
    · show ((s.delivered + 1 : Nat) : Int) ≤ cfg.maxDeliver
      omega
    · intro a ha
      rcases List.mem_cons.mp ha with rfl | ha
      · exact Nat.le_refl _
      · exact Nat.le_succ_of_le (h.number a ha)
    · intro a ha
      rcases List.mem_cons.mp ha with rfl | ha
      · cases metadata with
        | true => exact .running rfl (.inl rfl)
        | false =>
          exact .running rfl (.inr ⟨rfl, fun hlast => (hC hlast).resolve_left nofun⟩)
      · exact h.plan a ha
  | handled i err a ha htodo =>
    have himp : Saved cfg msg s →
        (s.handled || err.isNone) = true ∨ cfg.deadCopy msg ∈ s.dead := by
      refine Or.imp_left fun hhandled => ?_
      rw [hhandled, Bool.true_or]
    refine h.advance ha himp ?_ fun hsettled => himp (h.settled hsettled)
    cases h.plan a (Registry.get_mem ha) with
    | running _ hcount =>
      refine handleMessage_plan hmax hdlq hcount himp fun herr => .inl ?_
      rw [herr]
      exact Bool.or_true _
    | dying hother | settling _ hother | retrying _ hother =>
      rw [htodo] at hother
      cases hother
  | request i accepted a r rest ha htodo => exact h.request hC ha htodo
  | crashed i a ha =>
    refine ⟨h.distinct.remove, h.limit, ?_, ?_, h.settled, fun hlast => ?_⟩
    · exact fun b hb => h.number b (Registry.mem_remove.mp hb).1
    · exact fun b hb => h.plan b (Registry.mem_remove.mp hb).1
    · obtain hsaved | ⟨b, hb, hnumber⟩ := h.last hlast
      · exact .inl hsaved
      · by_cases hid : b.id = i
        · obtain rfl : b = a := h.attempt_eq ha hb hid
          exact .inl (hC b ha hnumber)
        · exact .inr ⟨b, Registry.mem_remove.mpr ⟨hb, hid⟩, hnumber⟩

/-- As long as the last delivery has its metadata, does not crash and is not refused the copy,
the message is at every moment handled, copied, still to be delivered, or in hand for the last
time. -/
theorem message_kept (cfg : Config) (hmax : 0 < cfg.maxDeliver)
    (hdlq : cfg.deadLetterSubject ≠ "") (subject durable : GoString) (msg : Message)
    (es : List Event) (s : Delivery)
    (h : Trace.run (step cfg (cfg.consumerConfig subject durable) msg) {} es = some s)
    (hsafe : Trace.Along (step cfg (cfg.consumerConfig subject durable) msg)
      (LastSafe cfg msg) {} es) :
    Kept cfg (cfg.consumerConfig subject durable) msg s := by
  have hinit : Inv cfg msg {} :=
    ⟨List.nodup_nil, hmax.le, nofun, nofun, nofun, fun hzero => absurd hzero hmax.ne⟩
  have hinv : Inv cfg msg s :=
    Trace.run_inv (fun s e s' hs hC hstep => hs.step hmax hdlq hC hstep) hinit hsafe h
  exact hinv.kept

def retryTwice : Config where
  maxDeliver := 2
  deadLetterSubject := "orders.dead"

def orderMsg : Message := ⟨"orders.created", [1], []⟩

def orderErr : Err := newInternalError "orders" "no stock" []

def retryConsumer : ConsumerConfig :=
  retryTwice.consumerConfig (bytes "orders.created") (bytes "orders_created")

def copied : List Event :=
  [.deliver 0 true, .handled 0 (some orderErr), .request 0 true,
    .deliver 1 true, .handled 1 (some orderErr), .request 1 true, .request 1 true]

theorem message_kept_copied :
    ∃ s, Trace.run (step retryTwice retryConsumer orderMsg) {} copied = some s ∧
      s.settled = true ∧ Kept retryTwice retryConsumer orderMsg s := by
  have hrun : (Trace.run (step retryTwice retryConsumer orderMsg) {} copied).map (·.settled) =
      some true := by
    decide
  obtain ⟨s, hs, hsettled⟩ := Option.map_eq_some_iff.mp hrun
  refine ⟨s, hs, hsettled, message_kept retryTwice (by decide) (by decide) _ _ orderMsg copied s
    hs ?_⟩
  refine ⟨fun hlast => .inl rfl, fun s₁ hs₁ => ?_⟩
  cases hs₁
  refine ⟨trivial, fun s₂ hs₂ => ?_⟩
  cases hs₂
  refine ⟨fun a m rest _ _ => .inl rfl, fun s₃ hs₃ => ?_⟩
  cases hs₃
  refine ⟨fun hlast => .inl rfl, fun s₄ hs₄ => ?_⟩
  cases hs₄
  refine ⟨trivial, fun s₅ hs₅ => ?_⟩
  cases hs₅
  refine ⟨fun a m rest _ _ => .inl rfl, fun s₆ _ => ?_⟩
  exact ⟨fun a m rest _ _ => .inl rfl, fun _ _ => trivial⟩

def copyRefused : List Event :=
  [.deliver 0 true, .crash 0, .deliver 1 true, .handled 1 (some orderErr), .request 1 false,
    .request 1 true]

def lastCrash : List Event := [.deliver 0 true, .crash 0, .deliver 1 true, .crash 1]

def noMetadata : List Event :=
  [.deliver 0 true, .crash 0, .deliver 1 false, .handled 1 (some orderErr), .request 1 true]

/-- Nobody has handled the message or has a copy of it, and no one will do anything about it. -/
def lost (s : Delivery) : Bool :=
  !s.handled && s.dead.isEmpty && !s.redelivers retryConsumer &&
    s.attempts.all fun a => a.todo = some []

/-- Three ways to lose a message. -/
theorem message_lost :
    (Trace.run (step retryTwice retryConsumer orderMsg) {} copyRefused).map lost = some true ∧
    (Trace.run (step retryTwice retryConsumer orderMsg) {} lastCrash).map lost = some true ∧
    (Trace.run (step retryTwice retryConsumer orderMsg) {} noMetadata).map lost = some true := by
  decide

end Microjet.JetStream.Delivery
