import Microjet.Proofs.OutboxPass
import Microjet.Outbox.Quiet

/-!
# What the outbox delivers

In every state any schedule of enqueuing transactions, relays, prunes, crashes, refusals and
write errors can reach. Each result is followed by a run that reaches a state it speaks about.
-/

namespace Microjet.Outbox

open Errorx Messaging Conc

/-! ## Delivery -/

/-- The row was accepted, as it was enqueued. -/
def Delivered (hist : List Event) (m : Row) : Prop :=
  ∃ p msg, Event.handed p m.id msg true ∈ hist ∧ msg.subject = m.subject ∧
    msg.data = m.payload

/-- The relay's query returns the row, if it asks for enough rows. -/
def St.Selectable (s : St) (id : Nat) : Prop :=
  ∃ m limit, m.id = id ∧ m ∈ Query.eval ⟨Row.pending, limit, false⟩ s.rows

/-- The row was given up. -/
def St.Quarantined (s : St) (id : Nat) : Prop :=
  ∃ m ∈ s.rows, m.id = id ∧ m.failedAt.isSome = true

/-- At least once, and never fabricated. -/
structure Delivery (s : St) : Prop where
  kept : ∀ e ∈ s.ledger, e.status = .committed →
    s.Selectable e.row.id ∨ s.Quarantined e.row.id ∨ Delivered s.hist e.row
  published : ∀ m ∈ s.rows, m.publishedAt.isSome = true → Delivered s.hist m
  deleted : ∀ e ∈ s.ledger, e.status = .committed →
    e.row.id ∉ s.rows.map Row.id → Delivered s.hist e.row
  prune : ∀ t cutoff a s', exec t (.delete (prunable cutoff)) s a s' →
    ∀ m ∈ s.rows, m.pending = true ∨ m.failedAt.isSome = true → m ∈ s'.rows
  exclusive : ∀ m ∈ s.rows, m.publishedAt = none ∨ m.failedAt = none
  genuine : ∀ p id msg ok, Event.handed p id msg ok ∈ s.hist →
    ∃ e ∈ s.ledger, e.status = .committed ∧ e.row.id = id ∧
      msg.subject = e.row.subject ∧ msg.data = e.row.payload
  rolledBack : ∀ e ∈ s.ledger, e.status = .rolledBack →
    ∀ ev ∈ s.hist, ev.hands e.row.id = false

section Delivery

variable {sys : System} {s : St} {m : Row} {id : Nat}

theorem selectable_of_pending (hm : m ∈ s.rows) (hp : m.pending = true) :
    s.Selectable m.id := by
  refine ⟨m, (s.rows.filter Row.pending).length, rfl, ?_⟩
  rw [Query.eval, List.take_of_length_le (by rw [List.length_insertionSort]),
    List.mem_insertionSort]
  exact List.mem_filter.mpr ⟨hm, hp⟩

theorem Core.delivered (h : Core sys s) {e : Entry} (he : e ∈ s.ledger)
    (hacc : s.hist.any (Event.accepts e.row.id) = true) : Delivered s.hist e.row := by
  obtain ⟨ev, hev, hacc⟩ := List.any_eq_true.mp hacc
  cases ev with
  | handed p i msg ok =>
    simp only [Event.accepts, Bool.and_eq_true, beq_iff_eq] at hacc
    obtain ⟨rfl, rfl⟩ := hacc
    obtain ⟨e', he', -, hid, hsub, hpay⟩ := h.known _ hev
    rw [h.entry_eq he' he hid] at hsub hpay
    exact ⟨p, msg, hev, hsub, hpay⟩
  | marked | recorded | aborted | returned => cases hacc

theorem Core.delivered_of_published (h : Core sys s) (hm : m ∈ s.rows)
    (hpub : m.publishedAt.isSome = true) : Delivered s.hist m := by
  obtain ⟨e, he, -, hid, hsub, hpay⟩ := h.inserted m hm
  have hmark : s.hist.any (Event.marks e.row.id) = true := by
    rw [hid, ← (h.row_ok m hm).published, hpub]
  obtain ⟨p, msg, hmsg, hs, hd⟩ := h.delivered he (h.hist_ok.accepted hmark)
  exact ⟨p, msg, hid ▸ hmsg, hs.trans hsub, hd.trans hpay⟩

theorem Core.row_kept (h : Core sys s) (hm : m ∈ s.rows) :
    s.Selectable m.id ∨ s.Quarantined m.id ∨ Delivered s.hist m := by
  cases hpub : m.publishedAt with
  | some at' => exact .inr (.inr (h.delivered_of_published hm (by rw [hpub]; rfl)))
  | none =>
    cases hfail : m.failedAt with
    | some at' => exact .inr (.inl ⟨m, hm, rfl, by rw [hfail]; rfl⟩)
    | none => exact .inl (selectable_of_pending hm (pending_iff.mpr ⟨hpub, hfail⟩))

/-- Committed rows are kept or delivered, rows are marked or deleted only once delivered, and the
broker was given nothing but committed rows. -/
theorem outbox_delivery (h : Reachable sys s) : Delivery s where
  kept := fun e he hc => by
    rcases h.inv.core.kept e he hc with ⟨m, hm, hid⟩ | hmark
    · rcases h.inv.core.row_kept hm with hsel | hq | hdel
      · exact .inl (hid ▸ hsel)
      · exact .inr (.inl (hid ▸ hq))
      · obtain ⟨e', he', -, hid', hsub, hpay⟩ := h.inv.core.inserted m hm
        rw [h.inv.core.entry_eq he' he (hid'.trans hid)] at hsub hpay
        obtain ⟨p, msg, hmsg, hs, hd⟩ := hdel
        exact .inr (.inr ⟨p, msg, hid ▸ hmsg, hs.trans hsub.symm, hd.trans hpay.symm⟩)
    · exact .inr (.inr (h.inv.core.delivered he (h.inv.core.hist_ok.accepted hmark)))
  published := fun m hm hpub => h.inv.core.delivered_of_published hm hpub
  deleted := fun e he hc hgone => by
    rcases h.inv.core.kept e he hc with ⟨m, hm, hid⟩ | hmark
    · exact absurd (hid ▸ List.mem_map_of_mem hm) hgone
    · exact h.inv.core.delivered he (h.inv.core.hist_ok.accepted hmark)
  prune := fun t cutoff a s' hex m hm hkeep => by
    have hno : prunable cutoff m = false := by
      have hpub : m.publishedAt = none := by
        rcases hkeep with hp | hf
        · exact (pending_iff.mp hp).1
        · refine ((h.inv.core.row_ok m hm).exclusive).resolve_right fun hnone => ?_
          rw [hnone] at hf
          cases hf
      rw [prunable, hpub]
    change Except Err Nat at a
    cases a with
    | error e => exact (show s' = s from hex) ▸ hm
    | ok n =>
      obtain ⟨-, -, rfl⟩ := hex
      exact List.mem_filter.mpr ⟨hm, by rw [hno]; rfl⟩
  exclusive := fun m hm => (h.inv.core.row_ok m hm).exclusive
  genuine := fun p id msg ok hev => h.inv.core.known _ hev
  rolledBack := fun e he hs ev hev => by
    cases ev with
    | handed p i msg ok =>
      obtain ⟨e', he', hc, hid, -⟩ := h.inv.core.known _ hev
      rw [Event.hands, beq_eq_false_iff_ne]
      intro heq
      rw [h.inv.core.entry_eq he' he (hid.trans heq), hs] at hc
      cases hc
    | marked | recorded | aborted | returned => rfl

end Delivery

/-! ### A run -/

def sampleSystem (dialect : String) : System where
  json := sampleJSON
  dialect := dialect
  opts _ := [.withMaxAttempts 1]

def sampleRow : Row := { id := 1, subject := "orders.created", payload := [7] }

def sampleStart : St where
  rows := [sampleRow]
  ledger := [⟨sampleRow, 0, .committed⟩]

theorem sampleRow_enqueued : enqueue sampleJSON true background
    { subject := "orders.created", data := [7] } = .ok { sampleRow with id := 0 } := rfl

theorem atRest_sampleStart (dialect : String) :
    AtRest (sampleSystem dialect) sampleStart := by
  have hempty : AtRest (sampleSystem dialect) {} := .init rfl
  have hnew := hempty.enqueue 0 1 sampleRow_enqueued List.not_mem_nil
  exact hnew.env (.commit 0)

def samplePass (dialect : String) (bad : Nat → Bool) : St :=
  runPass (sampleSystem dialect) bad (fun _ => 5) leader sampleStart

theorem reachable_samplePass (dialect : String) (bad : Nat → Bool) :
    Reachable (sampleSystem dialect) (samplePass dialect bad) :=
  ⟨_, (atRest_sampleStart dialect).runPass (fun _ _ => rfl) (.inr rfl)⟩

theorem outbox_delivery_sample :
    (samplePass "sqlite" fun _ => false).rows = [{ sampleRow with publishedAt := some 5 }] ∧
      Delivery (samplePass "sqlite" fun _ => false) :=
  ⟨by decide, outbox_delivery (reachable_samplePass "sqlite" _)⟩

/-! ## At most once -/

/-- With row locks, and as long as no pass is rolled back, the broker accepts a message at most
once, whatever the number of relays. -/
theorem accepted_at_most_once {sys : System} {s : St} (h : Reachable sys s)
    (hdialect : sys.dialect = "postgres" ∨ sys.dialect = "mysql")
    (hcommit : NoAborts s.hist) (id : Nat) :
    s.hist.countP (Event.accepts id) ≤ 1 := by
  have hl : sys.locking = true := by
    rw [System.locking, dialectSupportsLocking]
    rcases hdialect with hd | hd <;> rw [hd] <;> rfl
  exact h.inv.locks.once hl hcommit id

theorem reach_ask {sys : System} {s s' : St} {procs : Tid → Option (Code Result)}
    (h : Reach (machine sys) initial ⟨s, procs⟩) (t : Tid) (op : Op) (a : Ans op)
    {k : Ans op → Code Result} (hrun : procs t = some (.call op k)) (hexec : exec t op s a s') :
    Reach (machine sys) initial ⟨s', Function.update procs t (some (k a))⟩ :=
  .step h (.exec hrun hexec)

/-- Relay 0 has claimed the row when relay 1 runs a pass, which finds nothing to do. -/
theorem relays_meet : ∃ s, Reachable (sampleSystem "postgres") s ∧
    .returned ⟨0, 1⟩ 1 ∈ s.hist ∧ .returned ⟨1, 1⟩ 0 ∈ s.hist ∧ NoAborts s.hist ∧
    s.hist.countP (Event.accepts 1) = 1 := by
  have hstart : ∀ t s, start (sampleSystem "postgres") t
      (passJob sampleJSON ((sampleSystem "postgres").relay t)) s (s.started t) :=
    fun t s => ⟨rfl, .inl ⟨rfl, .inl rfl⟩⟩
  have hrest := atRest_sampleStart "postgres"
  -- relay 0 claims the row
  have h := Reach.step hrest (.start (t := 0) rfl (hstart 0 _))
  have h := reach_ask h 0 .begin (.ok ()) rfl rfl
  have h := reach_ask h 0 (.find ⟨Row.pending, _, true⟩) (.ok [sampleRow]) rfl
    ⟨[], by
        rintro id ⟨u, tx, hu, htx, -⟩
        simp [Function.update_of_ne hu, St.started, sampleStart] at htx, rfl, rfl⟩
  -- relay 1 finds it locked
  have h := Reach.step h (.start (t := 1) rfl (hstart 1 _))
  have h := reach_ask h 1 .begin (.ok ()) rfl rfl
  have h := reach_ask h 1 (.find ⟨Row.pending, _, true⟩) (.ok []) rfl
    ⟨[1], by
        rintro id ⟨u, tx, hu, htx, hid⟩
        by_cases hz : u = 0
        · subst hz
          cases htx
          exact hid
        · simp [Function.update_of_ne hu, Function.update_of_ne hz, St.started, St.lock,
            sampleStart] at htx, rfl, rfl⟩
  have h := reach_ask h 1 .commit (.ok ()) rfl ⟨_, rfl, rfl⟩
  have h := Reach.step h (.finish (t := 1) rfl rfl)
  -- relay 0 publishes and marks it
  have h := reach_ask h 0 .ctxErr none rfl rfl
  have h := reach_ask h 0 (.publish 1 _) none rfl rfl
  have h := reach_ask h 0 .now (5 : Time) rfl rfl
  have h := reach_ask h 0 (.update _ 1) (.ok 1) rfl
    ⟨by
        rintro ⟨u, tx, hu, htx, -⟩
        by_cases hz : u = 1
        · subst hz
          cases htx
        · simp [Function.update_of_ne hu, Function.update_of_ne hz, St.started, St.lock,
            St.commitTx, sampleStart] at htx, rfl, rfl⟩
  have h := reach_ask h 0 .commit (.ok ()) rfl ⟨_, rfl, rfl⟩
  have h := Reach.step h (.finish (t := 0) rfl rfl)
  exact ⟨_, ⟨_, h⟩, by decide, by decide, by unfold NoAborts; decide, by decide⟩

theorem accepted_at_most_once_sample :
    ∃ s, Reachable (sampleSystem "postgres") s ∧ .returned ⟨0, 1⟩ 1 ∈ s.hist ∧
      .returned ⟨1, 1⟩ 0 ∈ s.hist ∧ s.hist.countP (Event.accepts 1) = 1 ∧
      s.hist.countP (Event.accepts 1) ≤ 1 := by
  obtain ⟨s, hs, hzero, hone, hno, hcount⟩ := relays_meet
  exact ⟨s, hs, hzero, hone, hcount, accepted_at_most_once hs (.inl rfl) hno 1⟩

/-! ## Failure accounting -/

end Microjet.Outbox
