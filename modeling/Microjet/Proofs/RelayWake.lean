import Microjet.Outbox.Loop
import Microjet.Proofs.OutboxProgress

/-!
# No signal of the enqueuer is lost

A signal that finds the channel full is lost, but then a pass is still to come. So when nothing
is in the channel, every row that was signalled was signalled before the last pass began, which
accounts for it (`Left`), unless it came to show only after it: the price of a signal inside a
transaction.
-/

namespace Microjet.Outbox.RelayLoop

open Trace

/-- What the query of a relay looks at: on the locking path, the rows that no other relay has
locked. -/
def offered (r : Relay) (locked : List Nat) (seen : List Row) : List Row :=
  if r.locking then seen.filter fun a => a.id ∉ locked else seen

/-- How the last pass accounts for a row that is pending and was signalled. -/
inductive Left (r : Relay) (s : RelayLoop) (m : Row) : Prop where
  /-- The pass has just begun. -/
  | coming (h : s.place = .passing)
  /-- The pass is over, and its query failed. -/
  | unread (h : s.seen = none) (hover : s.place ≠ .passing)
  /-- The query returned the row. -/
  | fetched {seen : List Row} (h : s.seen = some seen)
      (hm : m.id ∈ (batch r (offered r s.locked seen)).map Row.id)
  | locked {seen : List Row} (h : s.seen = some seen) (hlocking : r.locking = true)
      (hm : m.id ∈ s.locked)
  | crowded {seen : List Row} (h : s.seen = some seen) (hm : m.id ∈ seen.map Row.id)
      (hfull : r.batchSize ≤ (offered r s.locked seen).countP fun a =>
        a.pending && decide (a.id < m.id))
  | late {seen : List Row} (h : s.seen = some seen) (hm : m.id ∉ seen.map Row.id)
      (hheard : m.id ∈ s.heard) (hearly : m.id ∈ s.early)

/-- No row becomes pending after the pass, and what was signalled before was there unless early. -/
structure Seen (s : RelayLoop) (seen : List Row) : Prop where
  ids : (seen.map Row.id).Nodup
  used : ∀ a ∈ seen, a.id ∈ s.used
  pending : ∀ m ∈ s.rows, m.pending = true → m.id ∈ seen.map Row.id →
    ∃ a ∈ seen, a.id = m.id ∧ a.pending = true
  heard : ∀ m ∈ s.rows, m.id ∈ s.heard → m.id ∈ seen.map Row.id ∨ m.id ∈ s.early

/-- The invariant of the loop: a signal that was not heard yet is in the channel. -/
structure Sound (s : RelayLoop) : Prop where
  ids : (s.rows.map Row.id).Nodup
  used : ∀ m ∈ s.rows, m.id ∈ s.used
  signalled : ∀ id ∈ s.signalled, id ∈ s.used ∨ id ∈ s.early
  heard : s.heard ⊆ s.signalled
  quiet : s.notify = false → s.signalled ⊆ s.heard
  seen : ∀ seen ∈ s.seen, s.Seen seen

theorem pending_of_apply {v : Values} {m : Row} (h : (v.apply m).pending = true) :
    m.pending = true := by
  unfold Row.pending Values.apply at h
  unfold Row.pending
  cases hp : m.publishedAt <;> cases hf : m.failedAt <;> simp_all

theorem mem_updateRows {v : Values} {id : Nat} {rows : List Row} {m : Row}
    (h : m ∈ updateRows v id rows) :
    ∃ a ∈ rows, a.id = m.id ∧ (m.pending = true → a.pending = true) := by
  obtain ⟨a, ha, rfl⟩ := List.mem_map.mp h
  refine ⟨a, ha, ?_⟩
  split
  · exact ⟨rfl, pending_of_apply⟩
  · exact ⟨rfl, fun hp => hp⟩

theorem ids_updateRows (v : Values) (id : Nat) (rows : List Row) :
    (updateRows v id rows).map Row.id = rows.map Row.id := by
  rw [updateRows, List.map_map]
  refine List.map_congr_left fun m _ => ?_
  show Row.id (if m.id = id then v.apply m else m) = m.id
  split <;> rfl

variable {r : Relay} {s s' : RelayLoop} {e : LoopEvent} {es : List LoopEvent} {m : Row}

theorem sound_start : Sound {} :=
  ⟨List.nodup_nil, fun _ h => (List.not_mem_nil h).elim, fun _ h => (List.not_mem_nil h).elim,
    List.nil_subset _, fun _ => List.nil_subset _, nofun⟩

theorem Sound.rows (hs : Sound s) {rows : List Row} (hids : (rows.map Row.id).Nodup)
    (h : ∀ m ∈ rows, ∃ a ∈ s.rows, a.id = m.id ∧ (m.pending = true → a.pending = true)) :
    Sound { s with rows } := by
  refine ⟨hids, fun m hm => ?_, hs.signalled, hs.heard, hs.quiet, fun seen hseen => ?_⟩
  · obtain ⟨a, ha, hid, -⟩ := h m hm
    exact hid ▸ hs.used a ha
  · have hold := hs.seen seen hseen
    refine ⟨hold.ids, hold.used, fun m hm hp hmem => ?_, fun m hm hheard => ?_⟩
    · obtain ⟨a, ha, hid, hpend⟩ := h m hm
      exact hid ▸ hold.pending a ha (hpend hp) (hid ▸ hmem)
    · obtain ⟨a, ha, hid, -⟩ := h m hm
      exact hid ▸ hold.heard a ha (hid ▸ hheard)

theorem Sound.commit (hs : Sound s) {row : Row} (hrow : row.id ∉ s.used) :
    Sound { s with rows := row :: s.rows, used := row.id :: s.used } := by
  refine ⟨List.nodup_cons.mpr ⟨fun h => ?_, hs.ids⟩, fun m hm => ?_,
    fun id hid => (hs.signalled id hid).imp_left (List.mem_cons_of_mem _), hs.heard, hs.quiet,
    fun seen hseen => ?_⟩
  · obtain ⟨a, ha, hid⟩ := List.mem_map.mp h
    exact hrow (hid ▸ hs.used a ha)
  · rcases List.mem_cons.mp hm with rfl | hm
    · exact List.mem_cons_self
    · exact List.mem_cons_of_mem _ (hs.used m hm)
  · have hold := hs.seen seen hseen
    refine ⟨hold.ids, fun a ha => List.mem_cons_of_mem _ (hold.used a ha),
      fun m hm hp hmem => ?_, fun m hm hheard => ?_⟩
    · rcases List.mem_cons.mp hm with rfl | hm
      · obtain ⟨a, ha, hid⟩ := List.mem_map.mp hmem
        exact absurd (hid ▸ hold.used a ha) hrow
      · exact hold.pending m hm hp hmem
    · rcases List.mem_cons.mp hm with rfl | hm
      · exact .inr ((hs.signalled _ (hs.heard hheard)).resolve_left hrow)
      · exact hold.heard m hm hheard

theorem Sound.signal (hs : Sound s) (id : Nat) :
    Sound { s with
      notify := true
      signalled := id :: s.signalled
      early := if id ∈ s.used then s.early else id :: s.early } := by
  have hearly : s.early ⊆ if id ∈ s.used then s.early else id :: s.early := by
    split
    · exact fun _ h => h
    · exact List.subset_cons_self _ _
  refine ⟨hs.ids, hs.used, fun i hi => ?_, fun _ h => List.mem_cons_of_mem _ (hs.heard h), nofun,
    fun seen hseen => ?_⟩
  · rcases List.mem_cons.mp hi with rfl | hi
    · by_cases hused : i ∈ s.used
      · exact .inl hused
      · exact .inr (by rw [if_neg hused]; exact List.mem_cons_self)
    · exact (hs.signalled i hi).imp_right fun h => hearly h
  · have hold := hs.seen seen hseen
    exact ⟨hold.ids, hold.used, hold.pending, fun m hm hheard =>
      (hold.heard m hm hheard).imp_right fun h => hearly h⟩

theorem Sound.step (hs : Sound s) (h : s.step e = some s') : Sound s' := by
  cases e with
  | commit row =>
    obtain ⟨hrow, heq⟩ := Option.ite_none_left_eq_some.mp h
    cases heq
    exact hs.commit hrow
  | signal id =>
    cases h
    exact hs.signal id
  | find locked =>
    obtain ⟨-, heq⟩ := Option.ite_none_right_eq_some.mp h
    cases heq
    refine ⟨hs.ids, hs.used, hs.signalled, hs.heard, hs.quiet, fun seen hseen => ?_⟩
    cases hseen
    exact ⟨hs.ids, hs.used, fun m hm hp _ => ⟨m, hm, rfl, hp⟩,
      fun m hm _ => .inl (List.mem_map_of_mem hm)⟩
  | update v id =>
    cases h
    refine hs.rows ?_ fun m hm => mem_updateRows hm
    rw [ids_updateRows]
    exact hs.ids
  | prune cutoff =>
    cases h
    refine hs.rows ((List.filter_sublist.map _).nodup hs.ids) fun m hm => ?_
    exact ⟨m, List.mem_of_mem_filter hm, rfl, id⟩
  | notified | ticked =>
    obtain ⟨-, heq⟩ := Option.ite_none_right_eq_some.mp h
    cases heq
    exact ⟨hs.ids, hs.used, hs.signalled, List.Subset.refl _, fun _ => List.Subset.refl _, nofun⟩
  | endPass | stop =>
    obtain ⟨-, heq⟩ := Option.ite_none_right_eq_some.mp h
    cases heq
    exact { hs with seen := fun seen hseen => { hs.seen seen hseen with } }
  | tick | cancel =>
    cases h
    exact { hs with seen := fun seen hseen => { hs.seen seen hseen with } }

theorem nodup_offered {locked : List Nat} {seen : List Row} (h : (seen.map Row.id).Nodup) :
    ((offered r locked seen).map Row.id).Nodup := by
  rw [offered]
  split
  · exact (List.filter_sublist.map _).nodup h
  · exact h

theorem mem_offered (r : Relay) (locked : List Nat) {seen : List Row} (h : m ∈ seen) :
    m ∈ offered r locked seen ∨ r.locking = true ∧ m.id ∈ locked := by
  rw [offered]
  split
  · next hlocking =>
      by_cases hm : m.id ∈ locked
      · exact .inr ⟨hlocking, hm⟩
      · exact .inl (List.mem_filter.mpr ⟨h, decide_eq_true hm⟩)
  · exact .inl h

/-- When nothing is in the channel and a row that was signalled is still pending, the last pass
accounts for it; only a row signalled before it showed can have come after its query. -/
theorem signal_not_lost (r : Relay) (h : run step {} es = some s) (hnotify : s.notify = false)
    (hm : m ∈ s.rows) (hp : m.pending = true) (hsig : m.id ∈ s.signalled) : Left r s m := by
  have hs : Sound s :=
    run_inv (fun _ _ _ hs _ => hs.step) sound_start
      (along_of_forall (C := fun _ _ => True) (fun _ _ => trivial) _ es) h
  by_cases hplace : s.place = .passing
  · exact .coming hplace
  cases hseen : s.seen with
  | none => exact .unread hseen hplace
  | some seen =>
    have hold := hs.seen seen hseen
    by_cases hmem : m.id ∈ seen.map Row.id
    · obtain ⟨a, ha, hid, hap⟩ := hold.pending m hm hp hmem
      rcases mem_offered r s.locked ha with hoffer | ⟨hlocking, hlocked⟩
      · by_cases hbatch : a ∈ batch r (offered r s.locked seen)
        · exact .fetched hseen (hid ▸ List.mem_map_of_mem hbatch)
        · rw [mem_batch_iff (nodup_offered hold.ids) hoffer hap, not_lt, hid] at hbatch
          exact .crowded hseen hmem hbatch
      · exact .locked hseen hlocking (hid ▸ hlocked)
    · have hheard := hs.quiet hnotify hsig
      exact .late hseen hmem hheard ((hold.heard m hm hheard).resolve_left hmem)

def lateRow : Row := { id := 1, subject := "orders.created", payload := [7] }

/-- The transaction commits between the query of the pass that its signal caused and its end. -/
def lateCommit : List LoopEvent :=
  [.signal 1, .find [], .endPass, .notified, .find [], .commit lateRow, .endPass]

theorem late_commit_left : ∃ s, run step {} lateCommit = some s ∧ s.seen = some [] ∧
    Left { locking := true } s lateRow :=
  ⟨_, rfl, rfl, signal_not_lost _ (show run step {} lateCommit = _ from rfl) rfl
    List.mem_cons_self rfl List.mem_cons_self⟩

end Microjet.Outbox.RelayLoop
