import Microjet.Lib.Run
import Microjet.Messaging.JetStream

/-!
# What a subscription receives

The name of a consumer comes from the subject or the queue, by a map that is not injective: two
subscriptions may share a consumer, and the later one replaces the filter of the earlier one.
`Isolated` says that each handler may be given just what it has subscribed to; a step keeps it
exactly when it does not mix two subscriptions up (`isolated_iff_separate`).
-/

namespace Microjet.JetStream.Client

open Errorx

variable {cfg : Config} {s s' : Client}

/-- A handler may be given only messages that its subject matches, and all of them. -/
structure Isolated (cfg : Config) (s : Client) : Prop where
  only : ∀ i m s', step cfg s (.deliver i m) = some s' →
    ∃ sub, s.sub i = some sub ∧ matchSubject sub.subject m = true
  all : ∀ sub ∈ s.subs, sub.active = true → ∀ m, literal m = true →
    matchSubject sub.subject m = true → (step cfg s (.deliver sub.id m)).isSome = true

/-- The consumer was made. -/
def done (create : Option (Err × Bool)) : Bool := (create.map (·.2)).getD true

/-- No consumer is taken from a handler with another subject, nor is one started on that was. -/
def Separate (cfg : Config) (s : Client) : Event → Prop
  | .subscribe _ subject queue (.ok stream) generated create =>
    done create = true → ∀ sub ∈ s.subs, sub.active = true →
      sub.key = consumerKey cfg subject queue stream generated →
        SameMessages subject sub.subject
  | .consume i none =>
    ∀ sub, s.sub i = some sub → ∀ c, s.consumers sub.key = some c →
      SameMessages c.filterSubject sub.subject
  | _ => True

/-- The steps, as a relation. -/
inductive Moves (cfg : Config) (s : Client) : Event → Client → Prop
  | noStream (i : Nat) (subject : GoString) (queue : Option GoString) (err : Err)
      (generated : GoString) (create : Option (Err × Bool)) :
      Moves cfg s (.subscribe i subject queue (.error err) generated create)
        (s.fail i (noStream subject err))
  | created (i : Nat) (subject : GoString) (queue : Option GoString) (stream generated : GoString)
      (hi : s.sub i = none) :
      Moves cfg s (.subscribe i subject queue (.ok stream) generated none)
        { s.createOrUpdateConsumer (consumerKey cfg subject queue stream generated)
            (cfg.consumerConfig subject (durable cfg subject queue)) with
          subs := ⟨i, subject, durable cfg subject queue,
            consumerKey cfg subject queue stream generated, false⟩ :: s.subs }
  | createFailed (i : Nat) (subject : GoString) (queue : Option GoString)
      (stream generated : GoString) (err : Err) :
      Moves cfg s (.subscribe i subject queue (.ok stream) generated (some (err, false)))
        (s.fail i (createFailed (durable cfg subject queue) stream err))
  | createdFailed (i : Nat) (subject : GoString) (queue : Option GoString)
      (stream generated : GoString) (err : Err) :
      Moves cfg s (.subscribe i subject queue (.ok stream) generated (some (err, true)))
        ((s.createOrUpdateConsumer (consumerKey cfg subject queue stream generated)
            (cfg.consumerConfig subject (durable cfg subject queue))).fail i
          (createFailed (durable cfg subject queue) stream err))
  | consumed (i : Nat) (sub : Sub) (hi : s.sub i = some sub) :
      Moves cfg s (.consume i none)
        { s with subs := Registry.modify Sub.id s.subs i fun sub => { sub with active := true } }
  | consumeFailed (i : Nat) (sub : Sub) (err : Err) :
      Moves cfg s (.consume i (some err))
        ({ s with subs := Registry.remove Sub.id s.subs i }.fail i
          (consumeFailed sub.durable err))
  | unsubscribed (i : Nat) :
      Moves cfg s (.unsubscribe i) { s with subs := Registry.remove Sub.id s.subs i }
  | gone (i : Nat) : Moves cfg s (.unsubscribe i) s
  | delivered (i : Nat) (m : GoString) : Moves cfg s (.deliver i m) s

theorem subscribe_moves {i : Nat} {subject : GoString} {queue : Option GoString}
    {stream : Except Err GoString} {generated : GoString} {create : Option (Err × Bool)}
    (hi : s.sub i = none)
    (h : s.subscribe cfg i subject queue stream generated create = some s') :
    Moves cfg s (.subscribe i subject queue stream generated create) s' := by
  cases stream with
  | error err =>
    cases h
    exact .noStream ..
  | ok stream =>
    simp only [subscribe] at h
    split at h
    next => cases h
    next =>
      match create with
      | none =>
        cases h
        exact .created _ _ _ _ _ hi
      | some (err, true) =>
        cases h
        exact .createdFailed ..
      | some (err, false) =>
        cases h
        exact .createFailed ..

theorem consume_moves {i : Nat} {err : Option Err} (h : s.consume i err = some s') :
    Moves cfg s (.consume i err) s' := by
  unfold consume at h
  cases hsub : s.sub i with
  | none =>
    rw [hsub] at h
    cases h
  | some sub =>
    rw [hsub] at h
    cases err with
    | none =>
      obtain ⟨-, h⟩ := Option.ite_none_left_eq_some.mp h
      cases h
      exact .consumed i sub hsub
    | some err =>
      obtain ⟨-, h⟩ := Option.ite_none_left_eq_some.mp h
      cases h
      exact .consumeFailed i sub err

theorem moves {e : Event} (h : step cfg s e = some s') : Moves cfg s e s' := by
  cases e with
  | subscribe i subject queue stream generated create =>
    obtain ⟨hi, h⟩ := Option.ite_none_left_eq_some.mp h
    exact subscribe_moves (Option.not_isSome_iff_eq_none.mp hi) h
  | consume i err => exact consume_moves h
  | unsubscribe i =>
    simp only [step] at h
    split at h
    next sub hsub =>
      obtain ⟨-, h⟩ := Option.ite_none_right_eq_some.mp h
      cases h
      exact .unsubscribed i
    next =>
      cases h
      exact .gone i
  | deliver i m =>
    obtain ⟨-, h⟩ := Option.ite_none_right_eq_some.mp h
    cases h
    exact .delivered i m

/-- Every subscription has its consumer. -/
structure Inv (s : Client) : Prop where
  distinct : Registry.Distinct Sub.id s.subs
  consumer : ∀ sub ∈ s.subs, ∃ c, s.consumers sub.key = some c

/-- The filter of each consumer that has a handler is the subject of the handler. -/
def Faithful (consumers : GoString × GoString → Option ConsumerConfig) (subs : List Sub) : Prop :=
  ∀ sub ∈ subs, sub.active = true → ∀ c, consumers sub.key = some c →
    SameMessages c.filterSubject sub.subject

section

variable {consumers : GoString × GoString → Option ConsumerConfig} {subs : List Sub}

theorem Inv.update (hs : Inv s) (key : GoString × GoString) (c : ConsumerConfig) :
    Inv (s.createOrUpdateConsumer key c) where
  distinct := hs.distinct
  consumer := by
    intro sub hsub
    by_cases hkey : sub.key = key
    · exact ⟨c, by rw [hkey]; exact Function.update_self ..⟩
    · obtain ⟨c', hc'⟩ := hs.consumer sub hsub
      exact ⟨c', (Function.update_of_ne hkey _ _).trans hc'⟩

theorem Inv.step {e : Event} (hs : Inv s) (h : step cfg s e = some s') : Inv s' := by
  cases moves h with
  | created i subject queue stream generated hi =>
    have hnew := hs.update (consumerKey cfg subject queue stream generated)
      (cfg.consumerConfig subject (durable cfg subject queue))
    refine ⟨hs.distinct.cons hi, fun sub hsub => ?_⟩
    rcases List.mem_cons.mp hsub with rfl | hsub
    · exact ⟨_, Function.update_self ..⟩
    · exact hnew.consumer sub hsub
  | createdFailed => exact ⟨hs.distinct, (hs.update _ _).consumer⟩
  | consumed i sub hi =>
    refine ⟨hs.distinct.modify fun _ => rfl, fun sub' hsub' => ?_⟩
    obtain ⟨hsub', -⟩ | ⟨old, hold, -, rfl⟩ := Registry.mem_modify.mp hsub'
    · exact hs.consumer sub' hsub'
    · exact hs.consumer old hold
  | consumeFailed | unsubscribed =>
    exact ⟨hs.distinct.remove, fun sub hsub => hs.consumer sub (Registry.mem_remove.mp hsub).1⟩
  | _ => exact ⟨hs.distinct, hs.consumer⟩

theorem faithful_update (h : Faithful consumers subs) (key : GoString × GoString)
    (c : ConsumerConfig) :
    Faithful (Function.update consumers key (some c)) subs ↔
      ∀ sub ∈ subs, sub.active = true → sub.key = key →
        SameMessages c.filterSubject sub.subject := by
  constructor
  · intro hnew sub hsub hactive hkey
    refine hnew sub hsub hactive c ?_
    rw [hkey]
    exact Function.update_self ..
  · intro hkept sub hsub hactive c' hc'
    by_cases hkey : sub.key = key
    · rw [hkey, Function.update_self] at hc'
      cases hc'
      exact hkept sub hsub hactive hkey
    · rw [Function.update_of_ne hkey] at hc'
      exact h sub hsub hactive c' hc'

theorem faithful_cons {sub : Sub} (hsub : sub.active = false) :
    Faithful consumers (sub :: subs) ↔ Faithful consumers subs := by
  constructor
  · exact fun h sub' hsub' => h sub' (List.mem_cons_of_mem _ hsub')
  · intro h sub' hsub' hactive
    rcases List.mem_cons.mp hsub' with rfl | hsub'
    · rw [hsub] at hactive
      cases hactive
    · exact h sub' hsub' hactive

theorem Faithful.remove {i : Nat} (h : Faithful consumers subs) :
    Faithful consumers (Registry.remove Sub.id subs i) :=
  fun sub hsub => h sub (Registry.mem_remove.mp hsub).1

theorem faithful_activate {i : Nat} (hd : Registry.Distinct Sub.id subs)
    (h : Faithful consumers subs) :
    Faithful consumers (Registry.modify Sub.id subs i fun sub => { sub with active := true }) ↔
      ∀ sub, Registry.get Sub.id subs i = some sub → ∀ c, consumers sub.key = some c →
        SameMessages c.filterSubject sub.subject := by
  constructor
  · intro hnew sub hsub c hc
    exact hnew { sub with active := true } (Registry.mem_modify.mpr
      (.inr ⟨sub, Registry.get_mem hsub, Registry.get_id hsub, rfl⟩)) rfl c hc
  · intro hown sub hsub hactive c hc
    obtain ⟨hsub, -⟩ | ⟨old, hold, hi, rfl⟩ := Registry.mem_modify.mp hsub
    · exact h sub hsub hactive c hc
    · exact hown old (hi ▸ hd.get_of_mem hold) c hc

end

theorem delivers_iff {sub : Sub} {m : GoString} :
    s.delivers sub m = true ↔ (sub.active = true ∧ literal m = true) ∧
      ∃ c, s.consumers sub.key = some c ∧ matchSubject c.filterSubject m = true := by
  rw [delivers, Bool.and_eq_true, Bool.and_eq_true]
  refine and_congr_right fun _ => ?_
  cases s.consumers sub.key with
  | none => exact iff_of_false Bool.false_ne_true nofun
  | some c =>
    rw [Option.any_some]
    constructor
    · exact fun h => ⟨c, rfl, h⟩
    · rintro ⟨c', hc', h⟩
      cases hc'
      exact h

theorem step_deliver (cfg : Config) {sub : Sub} {c : ConsumerConfig} {m : GoString} (hs : Inv s)
    (hsub : sub ∈ s.subs) (hactive : sub.active = true) (hc : s.consumers sub.key = some c)
    (hm : literal m = true) :
    (step cfg s (.deliver sub.id m)).isSome = matchSubject c.filterSubject m := by
  have hget : s.sub sub.id = some sub := hs.distinct.get_of_mem hsub
  have hdelivers : s.delivers sub m = matchSubject c.filterSubject m := by
    rw [delivers, hactive, hm, hc, Option.any_some]
    rfl
  rw [step, hget, Option.any_some, hdelivers]
  cases matchSubject c.filterSubject m <;> rfl

theorem isolated_iff_faithful (hs : Inv s) : Isolated cfg s ↔ Faithful s.consumers s.subs := by
  constructor
  · intro h sub hsub hactive c hc m hm
    rw [Bool.eq_iff_iff, ← step_deliver cfg hs hsub hactive hc hm]
    constructor
    · intro hsome
      obtain ⟨s', hs'⟩ := Option.isSome_iff_exists.mp hsome
      obtain ⟨sub', hsub', hmatch⟩ := h.only sub.id m s' hs'
      have hget : s.sub sub.id = some sub := hs.distinct.get_of_mem hsub
      rw [hget] at hsub'
      cases hsub'
      exact hmatch
    · exact h.all sub hsub hactive m hm
  · intro h
    constructor
    · intro i m s' hstep
      obtain ⟨hany, -⟩ := Option.ite_none_right_eq_some.mp hstep
      cases hsub : s.sub i with
      | none =>
        rw [hsub] at hany
        cases hany
      | some sub =>
        rw [hsub, Option.any_some] at hany
        obtain ⟨⟨hactive, hm⟩, c, hc, hmatch⟩ := delivers_iff.mp hany
        rw [h sub (Registry.get_mem hsub) hactive c hc m hm] at hmatch
        exact ⟨sub, rfl, hmatch⟩
    · intro sub hsub hactive m hm hmatch
      obtain ⟨c, hc⟩ := hs.consumer sub hsub
      rw [step_deliver cfg hs hsub hactive hc hm, h sub hsub hactive c hc m hm]
      exact hmatch

theorem faithful_step {e : Event} (hs : Inv s) (hf : Faithful s.consumers s.subs)
    (h : step cfg s e = some s') : Faithful s'.consumers s'.subs ↔ Separate cfg s e := by
  cases moves h with
  | created i subject queue stream generated hi =>
    refine (faithful_cons rfl).trans ((faithful_update hf _ _).trans ?_)
    exact ⟨fun h _ => h, fun h => h rfl⟩
  | createdFailed =>
    refine (faithful_update hf _ _).trans ?_
    exact ⟨fun h _ => h, fun h => h rfl⟩
  | consumed i sub hi => exact faithful_activate hs.distinct hf
  | consumeFailed | unsubscribed => exact iff_of_true hf.remove trivial
  | createFailed => exact iff_of_true hf nofun
  | _ => exact iff_of_true hf trivial

/-- In every state of a run each handler may be given just what it has subscribed to, exactly
when no call takes a consumer from a handler with another subject. -/
theorem isolated_iff_separate (cfg : Config) (es : List Event) (s : Client)
    (h : Trace.run (step cfg) {} es = some s) :
    Trace.Always (step cfg) (Isolated cfg) {} es ↔ Trace.Along (step cfg) (Separate cfg) {} es := by
  have hinit : Inv {} := ⟨List.nodup_nil, nofun⟩
  refine Trace.always_iff_along (I := Inv) (fun s e s' hs hstep => hs.step hstep) ?_ hinit
    ((isolated_iff_faithful hinit).mpr nofun) h
  intro s e s' hs hiso hstep
  rw [isolated_iff_faithful (hs.step hstep)]
  exact faithful_step hs ((isolated_iff_faithful hs).mp hiso) hstep

def twoQueues : List Event :=
  [.subscribe 0 (bytes "orders.created") (some (bytes "mail")) (.ok (bytes "ORDERS")) [] none,
    .consume 0 none,
    .subscribe 1 (bytes "orders.cancelled") (some (bytes "stock")) (.ok (bytes "ORDERS")) [] none,
    .consume 1 none,
    .deliver 0 (bytes "orders.created")]

theorem two_queues_isolated :
    (Trace.run (step {}) {} twoQueues).isSome = true ∧
      Trace.Always (step {}) (Isolated {}) {} twoQueues := by
  have hrun : (Trace.run (step {}) {} twoQueues).isSome = true := by decide
  obtain ⟨s, hs⟩ := Option.isSome_iff_exists.mp hrun
  refine ⟨hrun, (isolated_iff_separate {} twoQueues s hs).mpr ?_⟩
  refine ⟨fun _ _ hsub => absurd hsub List.not_mem_nil, fun s₁ hs₁ => ?_⟩
  cases hs₁
  refine ⟨fun sub hsub c hc => ?_, fun s₂ hs₂ => ?_⟩
  · cases hsub
    cases hc
    exact fun _ _ => rfl
  cases hs₂
  refine ⟨fun _ sub hsub _ hkey => ?_, fun s₃ hs₃ => ?_⟩
  · cases List.mem_singleton.mp hsub
    exact absurd hkey (by decide)
  cases hs₃
  refine ⟨fun sub hsub c hc => ?_, fun s₄ _ => ⟨trivial, fun _ _ => trivial⟩⟩
  cases hsub
  cases hc
  exact fun _ _ => rfl

def sharedQueue : List (Nat × Binding × Answers) :=
  [(0, ⟨bytes "mail", bytes "orders.created", bytes "workers"⟩,
      ⟨.ok (bytes "ORDERS"), [], none, none⟩),
    (1, ⟨bytes "stock", bytes "orders.cancelled", bytes "workers"⟩,
      ⟨.ok (bytes "ORDERS"), [], none, none⟩)]

def sharedName : List (Nat × Binding × Answers) :=
  [(0, ⟨bytes "mail", bytes "orders.created", []⟩, ⟨.ok (bytes "ALL"), [], none, none⟩),
    (1, ⟨bytes "stock", bytes "orders_created", []⟩, ⟨.ok (bytes "ALL"), [], none, none⟩)]

/-- The earlier handler gets what the later one asked for. -/
theorem earlier_handler_not_isolated :
    matchSubject (bytes "orders.created") (bytes "orders.created") = true ∧
    matchSubject (bytes "orders.created") (bytes "orders.cancelled") = false ∧
    matchSubject (bytes "orders.created") (bytes "orders_created") = false ∧
    (start {} {} sharedQueue).map (fun r => (r.2.isNone, (r.1.sub 0).map (·.subject),
      (step {} r.1 (.deliver 0 (bytes "orders.created"))).isSome,
      (step {} r.1 (.deliver 0 (bytes "orders.cancelled"))).isSome)) =
        some (true, some (bytes "orders.created"), false, true) ∧
    (start { durablePrefix := bytes "billing" } {} sharedName).map (fun r =>
      (r.2.isNone, (r.1.sub 0).map (·.subject),
        (step {} r.1 (.deliver 0 (bytes "orders.created"))).isSome,
        (step {} r.1 (.deliver 0 (bytes "orders_created"))).isSome)) =
          some (true, some (bytes "orders.created"), false, true) := by
  refine ⟨by decide, by decide, by decide, by decide +kernel, by decide +kernel⟩

end Microjet.JetStream.Client
