import Microjet.Lib.RelyGuarantee
import Microjet.Outbox.History

/-!
# The outbox invariant

`Core` says that each row's columns agree with what the history says of the row, and that
nothing in the history is about a row whose transaction did not commit. `Locks` says that no row
is locked twice, and that a pending row nobody has locked has not been accepted, as long as no
pass was rolled back. Each kind of step has one lemma per invariant.
-/

namespace Microjet.Outbox

open Errorx Messaging Conc
open Function (update update_self update_of_ne)

/-! ## The invariants -/

/-- The columns of a row agree with the history. -/
structure RowOk (hist : List Event) (m : Row) : Prop where
  published : m.publishedAt.isSome = hist.any (Event.marks m.id)
  failed : m.failedAt.isSome = hist.any (Event.quarantines m.id)
  exclusive : m.publishedAt = none ∨ m.failedAt = none
  attempts : m.attempts = hist.countP (Event.records m.id)

/-- The row was enqueued for good. -/
def Committed (ledger : List Entry) (id : Nat) : Prop :=
  ∃ e ∈ ledger, e.status = .committed ∧ e.row.id = id

/-- The event is about a committed row. -/
def Event.Known (ledger : List Entry) : Event → Prop
  | .handed _ id msg _ => ∃ e ∈ ledger, e.status = .committed ∧ e.row.id = id ∧
      msg.subject = e.row.subject ∧ msg.data = e.row.payload
  | .marked _ id => Committed ledger id
  | .recorded _ id _ _ => Committed ledger id
  | .aborted _ => True
  | .returned _ _ => True

/-- The table, the ledger and the history agree. -/
structure Core (sys : System) (s : St) : Prop where
  ledger_nodup : (s.ledger.map (·.row.id)).Nodup
  rows_nodup : (s.rows.map Row.id).Nodup
  fresh : ∀ e ∈ s.ledger, e.row.publishedAt = none ∧ e.row.failedAt = none ∧
    e.row.attempts = 0
  inserted : ∀ m ∈ s.rows, ∃ e ∈ s.ledger, e.status = .committed ∧
    e.row.id = m.id ∧ e.row.subject = m.subject ∧ e.row.payload = m.payload
  kept : ∀ e ∈ s.ledger, e.status = .committed →
    (∃ m ∈ s.rows, m.id = e.row.id) ∨ s.hist.any (Event.marks e.row.id) = true
  known : ∀ e ∈ s.hist, e.Known s.ledger
  row_ok : ∀ m ∈ s.rows, RowOk s.hist m
  hist_ok : HistOk sys s.hist
  started : ∀ e ∈ s.hist, e.pass.nth ≤ s.runs e.pass.relay

def St.Unlocked (s : St) (id : Nat) : Prop :=
  ∀ t tx, s.txs t = some tx → id ∉ tx.locks

/-- The locks are disjoint, and guard what is pending. -/
structure Locks (sys : System) (s : St) : Prop where
  disjoint : ∀ t u tx tx', t ≠ u → s.txs t = some tx → s.txs u = some tx' →
    ∀ id ∈ tx.locks, id ∉ tx'.locks
  free : sys.locking = false → ∀ t, s.txs t = none
  unmarked : ∀ t, (s.txs t).isSome → markedIds (s.pass t) s.hist = []
  once : sys.locking = true → NoAborts s.hist →
    ∀ id, s.hist.countP (Event.accepts id) ≤ 1
  unsent : sys.locking = true → NoAborts s.hist → ∀ m ∈ s.rows,
    m.pending = true → s.Unlocked m.id → s.hist.countP (Event.accepts m.id) = 0

/-- Both. -/
structure Inv (sys : System) (s : St) : Prop where
  core : Core sys s
  locks : Locks sys s

theorem inv_initial (sys : System) : Inv sys {} where
  core :=
    { ledger_nodup := List.nodup_nil
      rows_nodup := List.nodup_nil
      fresh := fun _ h => nomatch h
      inserted := fun _ h => nomatch h
      kept := fun _ h => nomatch h
      known := fun _ h => nomatch h
      row_ok := fun _ h => nomatch h
      hist_ok := trivial
      started := fun _ h => nomatch h }
  locks :=
    { disjoint := fun _ _ _ _ _ h => nomatch h
      free := fun _ _ => rfl
      unmarked := fun _ h => nomatch h
      once := fun _ _ _ => Nat.zero_le 1
      unsent := fun _ _ _ h => nomatch h }

/-! ## Rows and events -/

section Rows

variable {sys : System} {s : St} {hist : List Event} {m : Row} {p : PassId}
  {id : Nat}

theorem Core.row_eq (h : Core sys s) {m' : Row} (hm : m ∈ s.rows)
    (hm' : m' ∈ s.rows) (hid : m.id = m'.id) : m = m' :=
  List.inj_on_of_nodup_map h.rows_nodup hm hm' hid

theorem Core.entry_eq (h : Core sys s) {e e' : Entry} (he : e ∈ s.ledger)
    (he' : e' ∈ s.ledger) (hid : e.row.id = e'.row.id) : e = e' :=
  List.inj_on_of_nodup_map h.ledger_nodup he he' hid

theorem pending_iff : m.pending = true ↔ m.publishedAt = none ∧ m.failedAt = none := by
  simp [Row.pending]

theorem RowOk.of_pending (h : RowOk hist m) (hp : m.pending = true) :
    hist.any (Event.marks m.id) = false ∧
      hist.any (Event.quarantines m.id) = false := by
  obtain ⟨hpub, hfail⟩ := pending_iff.mp hp
  exact ⟨by rw [← h.published, hpub]; rfl, by rw [← h.failed, hfail]; rfl⟩

variable {e : Event}

theorem RowOk.cons (h : RowOk hist m) (hmark : e.marks m.id = false)
    (hrec : e.records m.id = false) :
    RowOk (e :: hist) m where
  published := by rw [List.any_cons, hmark, Bool.false_or]; exact h.published
  failed := by
    have hq : e.quarantines m.id = false := by
      cases e with
      | recorded => simp_all [Event.records, Event.quarantines]
      | handed | marked | aborted | returned => rfl
    rw [List.any_cons, hq, Bool.false_or]
    exact h.failed
  exclusive := h.exclusive
  attempts := by rw [List.countP_cons_of_neg (by simp [hrec])]; exact h.attempts

theorem Event.Known.mono {l l' : List Entry} (hl : ∀ e ∈ l, e.status = .committed → e ∈ l')
    (h : e.Known l) :
    e.Known l' := by
  cases e with
  | handed =>
    obtain ⟨e, he, hc, hrest⟩ := h
    exact ⟨e, hl e he hc, hc, hrest⟩
  | marked | recorded =>
    obtain ⟨e, he, hc, hrest⟩ := h
    exact ⟨e, hl e he hc, hc, hrest⟩
  | aborted | returned => trivial

theorem Event.Known.silent {l : List Entry} (h : e.Known l) (hid : ¬ Committed l id) :
    e.marks id = false ∧ e.records id = false ∧ e.accepts id = false := by
  cases e with
  | handed p i =>
    have hne : i ≠ id := fun hi => by
      obtain ⟨e, he, hc, heq, _⟩ := h
      exact hid ⟨e, he, hc, heq.trans hi⟩
    simp [Event.marks, Event.records, Event.accepts, hne]
  | marked p i | recorded p i =>
    have hne : i ≠ id := fun hi => hid (hi ▸ h)
    simp [Event.marks, Event.records, Event.accepts, hne]
  | aborted | returned => exact ⟨rfl, rfl, rfl⟩

theorem Core.log (h : Core sys s) (hok : EventOk sys s.hist e) (hknown : e.Known s.ledger)
    (hrun : e.pass.nth ≤ s.runs e.pass.relay) (hmark : ∀ i, e.marks i = false)
    (hrec : ∀ i, e.records i = false) {txs : Tid → Option Tx} :
    Core sys { s with txs, hist := e :: s.hist } where
  ledger_nodup := h.ledger_nodup
  rows_nodup := h.rows_nodup
  fresh := h.fresh
  inserted := h.inserted
  kept := fun e' he' hc => (h.kept e' he' hc).imp_right fun hm => by
    rw [List.any_cons, hm, Bool.or_true]
  known := List.forall_mem_cons.mpr ⟨hknown, h.known⟩
  row_ok := fun m hm => (h.row_ok m hm).cons (hmark _) (hrec _)
  hist_ok := ⟨hok, h.hist_ok⟩
  started := List.forall_mem_cons.mpr ⟨hrun, h.started⟩

theorem Core.setTxs (h : Core sys s) (txs : Tid → Option Tx) :
    Core sys { s with txs } :=
  { h with }

end Rows

/-! ## Committed writes

Both paths of the relay write one row at a time: the lock-free one as it goes,
the locked one all at once when it commits. `WriteOk` is what a write has to
promise about the row it changes, and `Core.write` that such a write keeps
`Core`. `Wrote` collects what a batch of writes leaves alone. -/

/-- A write the relay may make for row `m`: a mark after the broker accepted it,
or one more failure. -/
inductive WriteOk (sys : System) (p : PassId) (hist : List Event) (m : Row) :
    Values → Prop where
  | mark (now : Time) (h : hist.any (Event.accepts m.id) = true) :
      WriteOk sys p hist m { publishedAt := some now }
  | fail (text : String) (failedAt : Option Time)
      (h : failedAt.isSome = true ↔ 0 < (sys.relay p.relay).maxAttempts ∧
        (sys.relay p.relay).maxAttempts ≤ m.attempts + 1) :
      WriteOk sys p hist m
        { attempts := some (m.attempts + 1), lastError := some text, failedAt }

/-- The rows marked as published. -/
def marksOf (ws : List (Nat × Values)) : List Nat :=
  (ws.filter (·.2.publishedAt.isSome)).map Prod.fst

section Writes

variable {sys : System} {s s' s'' : St} {hist new : List Event} {m : Row}
  {p : PassId} {id : Nat} {v : Values} {w : Nat × Values}
  {ws ws' : List (Nat × Values)}

@[simp] theorem apply_id : (v.apply m).id = m.id := rfl

theorem updateRows_ids (rows : List Row) :
    (updateRows v id rows).map Row.id = rows.map Row.id := by
  rw [updateRows, List.map_map]
  refine List.map_congr_left fun m _ => ?_
  by_cases h : m.id = id <;> simp [h]

variable {rows : List Row}

theorem mem_updateRows {m' : Row} (h : m' ∈ updateRows v id rows) :
    (∃ m ∈ rows, m.id = id ∧ m' = v.apply m) ∨ (m' ∈ rows ∧ m'.id ≠ id) := by
  obtain ⟨m, hm, rfl⟩ := List.mem_map.mp h
  by_cases hid : m.id = id
  · exact .inl ⟨m, hm, hid, if_pos hid⟩
  · rw [if_neg hid]
    exact .inr ⟨hm, hid⟩

theorem mem_updateRows_of_ne (hm : m ∈ rows) (hid : m.id ≠ id) :
    m ∈ updateRows v id rows :=
  List.mem_map.mpr ⟨m, hm, if_neg hid⟩

theorem mem_updateRows_self (hm : m ∈ rows) :
    v.apply m ∈ updateRows v m.id rows :=
  List.mem_map.mpr ⟨m, hm, if_pos rfl⟩

theorem write_eq (hm : m ∈ s.rows) : s.write p (m.id, v) =
    { s with rows := updateRows v m.id s.rows, hist := v.events p m.id ++ s.hist } :=
  if_pos (List.any_eq_true.mpr ⟨m, hm, by simp⟩)

variable {e : Event}

theorem Core.change (h : Core sys s) (hm : m ∈ s.rows) (hok : EventOk sys s.hist e)
    (hknown : e.Known s.ledger) (hrun : e.pass.nth ≤ s.runs e.pass.relay)
    (hmark : ∀ i, i ≠ m.id → e.marks i = false) (hrec : ∀ i, i ≠ m.id → e.records i = false)
    (hrow : RowOk (e :: s.hist) (v.apply m)) :
    Core sys { s with rows := updateRows v m.id s.rows, hist := e :: s.hist } where
  ledger_nodup := h.ledger_nodup
  rows_nodup := by rw [updateRows_ids]; exact h.rows_nodup
  fresh := h.fresh
  inserted := fun m' hm' => by
    rcases mem_updateRows hm' with ⟨m₀, hm₀, _, rfl⟩ | ⟨hm', _⟩
    · exact h.inserted m₀ hm₀
    · exact h.inserted m' hm'
  kept := fun e' he' hc => by
    rcases h.kept e' he' hc with ⟨m', hm', hid⟩ | hmark'
    · refine .inl ?_
      by_cases heq : m'.id = m.id
      · exact ⟨_, mem_updateRows_self hm, heq.symm.trans hid⟩
      · exact ⟨m', mem_updateRows_of_ne hm' heq, hid⟩
    · exact .inr (by rw [List.any_cons, hmark', Bool.or_true])
  known := List.forall_mem_cons.mpr ⟨hknown, h.known⟩
  row_ok := fun m' hm' => by
    rcases mem_updateRows hm' with ⟨m₀, hm₀, hid, rfl⟩ | ⟨hm', hne⟩
    · rw [h.row_eq hm₀ hm hid]
      exact hrow
    · exact (h.row_ok m' hm').cons (hmark _ hne) (hrec _ hne)
  hist_ok := ⟨hok, h.hist_ok⟩
  started := List.forall_mem_cons.mpr ⟨hrun, h.started⟩

theorem Core.committed (h : Core sys s) (hm : m ∈ s.rows) :
    Committed s.ledger m.id :=
  let ⟨e, he, hc, hid, _⟩ := h.inserted m hm
  ⟨e, he, hc, hid⟩

/-- A write the relay may make keeps the table, the ledger and the history in
agreement. -/
theorem Core.write (h : Core sys s) (hm : m ∈ s.rows) (hp : m.pending = true)
    (hw : WriteOk sys p s.hist m v) (hopen : OpenPass p s.hist)
    (hrun : p.nth ≤ s.runs p.relay) : Core sys (s.write p (m.id, v)) := by
  have hok := h.row_ok m hm
  obtain ⟨hmark, hquar⟩ := hok.of_pending hp
  obtain ⟨hpub, hfail⟩ := pending_iff.mp hp
  rw [write_eq hm]
  cases hw with
  | mark now hacc =>
    refine h.change hm (e := .marked p m.id) ⟨hacc, hmark, hopen⟩
      (h.committed hm) hrun (fun i hi => ?_) (fun _ _ => rfl) ?_
    · simpa [Event.marks] using hi.symm
    · exact
        { published := by simp [Values.apply, Event.marks]
          failed := by
            simp only [Values.apply, Option.none_or, hfail, List.any_cons,
              Event.quarantines, Bool.false_or, hquar]
            rfl
          exclusive := .inr (by simp [Values.apply, hfail])
          attempts := by
            rw [List.countP_cons_of_neg (by simp [Event.records])]
            exact hok.attempts }
  | fail text failedAt hq =>
    refine h.change hm (e := .recorded p m.id (m.attempts + 1) failedAt.isSome)
      ⟨by rw [hok.attempts], hq, hquar⟩ (h.committed hm) hrun
      (fun _ _ => rfl) (fun i hi => ?_) ?_
    · simpa [Event.records] using hi.symm
    · exact
        { published := by
            simp only [Values.apply, Option.none_or, hpub, List.any_cons,
              Event.marks, Bool.false_or, hmark]
            rfl
          failed := by
            simp only [Values.apply, hfail, Option.or_none, List.any_cons,
              Event.quarantines, BEq.rfl, Bool.true_and, hquar, Bool.or_false]
          exclusive := .inl (by simp [Values.apply, hpub])
          attempts := by
            rw [List.countP_cons_of_pos (by simp [Event.records])]
            simp only [Values.apply, Option.getD_some, hok.attempts] }

/-- What a list of writes does. -/
structure Wrote (p : PassId) (ws : List (Nat × Values)) (s s' : St) : Prop where
  txs : s'.txs = s.txs
  runs : s'.runs = s.runs
  hist : ∃ new, s'.hist = new ++ s.hist ∧
    ∀ e ∈ new, e.pass = p ∧ e.ends = false ∧ ∀ id, e.hands id = false
  count : (markedIds p s'.hist).length =
    (marksOf ws).length + (markedIds p s.hist).length
  rows : ∀ m ∈ s.rows, m.id ∉ ws.map Prod.fst → m ∈ s'.rows
  pending : ∀ m' ∈ s'.rows, m'.pending = true →
    m'.id ∉ marksOf ws ∧ ∃ m ∈ s.rows, m.id = m'.id ∧ m.pending = true

theorem Wrote.refl : Wrote p [] s s where
  txs := rfl
  runs := rfl
  hist := ⟨[], rfl, fun _ h => nomatch h⟩
  count := by simp [marksOf]
  rows := fun _ hm _ => hm
  pending := fun m' hm' hp => ⟨by simp [marksOf], m', hm', rfl, hp⟩

theorem marksOf_append : marksOf (ws ++ ws') = marksOf ws ++ marksOf ws' := by
  rw [marksOf, List.filter_append, List.map_append]
  rfl

theorem Wrote.trans (h : Wrote p ws s s') (h' : Wrote p ws' s' s'') :
    Wrote p (ws ++ ws') s s'' where
  txs := h'.txs.trans h.txs
  runs := h'.runs.trans h.runs
  hist := by
    obtain ⟨new, hnew, hall⟩ := h.hist
    obtain ⟨new', hnew', hall'⟩ := h'.hist
    exact ⟨new' ++ new, by rw [hnew', hnew, List.append_assoc], fun e he =>
      (List.mem_append.mp he).elim (hall' e) (hall e)⟩
  count := by
    rw [h'.count, h.count, marksOf_append, List.length_append]
    omega
  rows := fun m hm hid => by
    rw [List.map_append, List.mem_append, not_or] at hid
    exact h'.rows m (h.rows m hm hid.1) hid.2
  pending := fun m' hm' hp => by
    obtain ⟨hno', m₁, hm₁, hid₁, hp₁⟩ := h'.pending m' hm' hp
    obtain ⟨hno, m₀, hm₀, hid₀, hp₀⟩ := h.pending m₁ hm₁ hp₁
    rw [marksOf_append, List.mem_append, not_or, ← hid₁]
    exact ⟨⟨hno, by rw [hid₁]; exact hno'⟩, m₀, hm₀, hid₀, hp₀⟩

theorem mem_events (h : e ∈ v.events p id) :
    e.pass = p ∧ e.ends = false ∧ ∀ i, e.hands i = false := by
  rcases List.mem_append.mp h with h | h
  all_goals
    obtain ⟨_, _, rfl⟩ := List.mem_map.mp h
    exact ⟨rfl, rfl, fun _ => rfl⟩

theorem markedIds_events :
    (markedIds p (v.events p id)).length = (marksOf [(id, v)]).length := by
  cases hpub : v.publishedAt <;> cases hatt : v.attempts <;>
    simp [Values.events, marksOf, markedIds, markedBy, hpub, hatt]

theorem pending_of_apply (h : (v.apply m).pending = true) :
    m.pending = true ∧ v.publishedAt = none := by
  obtain ⟨hpub, hfail⟩ := pending_iff.mp h
  simp only [Values.apply, Option.or_eq_none_iff] at hpub hfail
  exact ⟨pending_iff.mpr ⟨hpub.2, hfail.2⟩, hpub.1⟩

theorem wrote_write (hm : m ∈ s.rows) : Wrote p [(m.id, v)] s (s.write p (m.id, v)) := by
  rw [write_eq hm]
  exact
    { txs := rfl
      runs := rfl
      hist := ⟨_, rfl, fun _ he => mem_events he⟩
      count := by rw [markedIds_append, List.length_append, markedIds_events]
      rows := fun m' hm' hid => mem_updateRows_of_ne hm' (by simpa using hid)
      pending := fun m' hm' hp => by
        rcases mem_updateRows hm' with ⟨m₀, hm₀, hid, rfl⟩ | ⟨hm', hne⟩
        · obtain ⟨hp₀, hpub⟩ := pending_of_apply hp
          exact ⟨by simp [marksOf, hpub], m₀, hm₀, rfl, hp₀⟩
        · refine ⟨fun hmem => hne ?_, m', hm', rfl, hp⟩
          obtain ⟨w, hw, hid⟩ := List.mem_map.mp hmem
          rw [← hid, List.mem_singleton.mp (List.mem_filter.mp hw).1] }

theorem OpenPass.append {old : List Event} (h : OpenPass p old)
    (hnew : ∀ e ∈ new, e.ends = false) : OpenPass p (new ++ old) := fun e he hp =>
  (List.mem_append.mp he).elim (hnew e) fun he => h e he hp

theorem OpenPass.cons (h : OpenPass p hist) (he : e.ends = false) :
    OpenPass p (e :: hist) := fun e' he' hp => by
  rcases List.mem_cons.mp he' with rfl | he'
  · exact he
  · exact h e' he' hp

theorem WriteOk.append (h : WriteOk sys p hist m v) :
    WriteOk sys p (new ++ hist) m v := by
  cases h with
  | mark now h => exact .mark now (by rw [List.any_append, h, Bool.or_true])
  | fail text failedAt h => exact .fail text failedAt h

/-- The rows the writes are about are different ones, so each finds its row as it was read. -/
theorem Core.writes (h : Core sys s) (hnodup : (ws.map Prod.fst).Nodup)
    (hws : ∀ w ∈ ws, ∃ m ∈ s.rows, m.id = w.1 ∧ m.pending = true ∧
      WriteOk sys p s.hist m w.2)
    (hopen : OpenPass p s.hist) (hrun : p.nth ≤ s.runs p.relay) :
    Core sys (ws.foldl (St.write p) s) ∧
      Wrote p ws s (ws.foldl (St.write p) s) := by
  induction ws generalizing s with
  | nil => exact ⟨h, .refl⟩
  | cons w ws ih =>
    obtain ⟨i, v⟩ := w
    obtain ⟨m, hm, rfl, hp, hw⟩ := hws _ List.mem_cons_self
    have hwrote : Wrote p [(m.id, v)] s (s.write p (m.id, v)) := wrote_write hm
    obtain ⟨new, hhist, hnew⟩ := hwrote.hist
    rw [List.map_cons, List.nodup_cons] at hnodup
    have hrest := ih (h.write hm hp hw hopen hrun) hnodup.2
      (fun w' hw' => by
        obtain ⟨m', hm', hid', hp', hok'⟩ := hws w' (List.mem_cons_of_mem _ hw')
        refine ⟨m', hwrote.rows m' hm' ?_, hid', hp', by rw [hhist]; exact hok'.append⟩
        rw [List.map_singleton, List.mem_singleton, hid']
        exact fun heq => hnodup.1 (heq ▸ List.mem_map_of_mem hw'))
      (by rw [hhist]; exact hopen.append fun e he => (hnew e he).2.1)
      (by rw [hwrote.runs]; exact hrun)
    exact ⟨hrest.1, hwrote.trans hrest.2⟩

end Writes

/-! ## Transactions

What each step does to `Locks`, and to `Core` where it touches it. -/

section Transactions

variable {sys : System} {s s₁ : St} {t : Tid} {tx tx' : Tx} {p : PassId} {id : Nat}

theorem accepts_of_hands {e : Event} (h : e.hands id = false) :
    e.accepts id = false := by
  cases e with
  | handed => simp_all [Event.hands, Event.accepts]
  | marked | recorded | aborted | returned => rfl

theorem countP_accepts_append {new old : List Event}
    (h : ∀ e ∈ new, e.hands id = false) :
    (new ++ old).countP (Event.accepts id) = old.countP (Event.accepts id) := by
  rw [List.countP_append, List.countP_eq_zero.mpr, Nat.zero_add]
  intro e he
  rw [accepts_of_hands (h e he)]
  exact Bool.false_ne_true

variable {txs : Tid → Option Tx}

theorem update_none_eq_some {u : Tid}
    (h : update txs t none u = some tx) : u ≠ t ∧ txs u = some tx := by
  by_cases hut : u = t
  · rw [hut, update_self] at h
    cases h
  · exact ⟨hut, by rwa [update_of_ne hut] at h⟩

theorem update_some_eq {u : Tid} (h : update txs t (some tx') u = some tx) :
    (u = t ∧ tx = tx') ∨ (u ≠ t ∧ txs u = some tx) := by
  by_cases hut : u = t
  · rw [hut, update_self] at h
    exact .inl ⟨hut, (Option.some.inj h).symm⟩
  · exact .inr ⟨hut, by rwa [update_of_ne hut] at h⟩

theorem Locks.of_free (hlock : sys.locking = false) (hfree : ∀ t, s.txs t = none) :
    Locks sys s where
  disjoint := fun t _ _ _ _ h => by rw [hfree] at h; cases h
  free := fun _ => hfree
  unmarked := fun t h => by rw [hfree] at h; cases h
  once := fun h => by rw [hlock] at h; cases h
  unsent := fun h => by rw [hlock] at h; cases h

theorem Locks.log (h : Locks sys s) {e : Event} (hmark : ∀ p, markedBy p e = none)
    (hacc : sys.locking = true → NoAborts s.hist → ∀ id, e.accepts id = true →
      s.hist.countP (Event.accepts id) = 0 ∧ ¬ s.Unlocked id) :
    Locks sys { s with hist := e :: s.hist } where
  disjoint := h.disjoint
  free := h.free
  unmarked := fun t ht => (markedIds_cons_of_none (hmark _)).trans (h.unmarked t ht)
  once := fun hl hn id => by
    have hn' : NoAborts s.hist := hn.of_cons
    by_cases he : e.accepts id = true
    · rw [List.countP_cons_of_pos he, (hacc hl hn' id he).1]
    · rw [List.countP_cons_of_neg he]
      exact h.once hl hn' id
  unsent := fun hl hn m hm hp hu => by
    have hn' : NoAborts s.hist := hn.of_cons
    rw [List.countP_cons_of_neg fun he => (hacc hl hn' _ he).2 hu]
    exact h.unsent hl hn' m hm hp hu

theorem Locks.begin (h : Locks sys s) (hlock : sys.locking = true)
    (hnone : s.txs t = none) (hmark : markedIds (s.pass t) s.hist = []) :
    Locks sys { s with txs := update s.txs t (some {}) } where
  disjoint := fun a b ta tb hab ha hb id hid hid' => by
    rcases update_some_eq ha with ⟨-, rfl⟩ | ⟨-, ha⟩
    · cases hid
    · rcases update_some_eq hb with ⟨-, rfl⟩ | ⟨-, hb⟩
      · cases hid'
      · exact h.disjoint a b ta tb hab ha hb id hid hid'
  free := fun hf => by rw [hlock] at hf; cases hf
  unmarked := fun u hu => by
    by_cases hut : u = t
    · subst hut
      exact hmark
    · have hu : (update s.txs t (some {}) u).isSome := hu
      rw [update_of_ne hut] at hu
      exact h.unmarked u hu
  once := h.once
  unsent := fun hl hn m hm hp hu => h.unsent hl hn m hm hp fun u tx htx => by
    have hut : u ≠ t := fun heq => by rw [heq, hnone] at htx; cases htx
    exact hu u tx ((update_of_ne hut _ _).trans htx)

theorem Locks.grow (h : Locks sys s) (htx : s.txs t = some tx)
    (hsub : ∀ id ∈ tx.locks, id ∈ tx'.locks)
    (hnew : ∀ id ∈ tx'.locks, ¬ s.LockedElsewhere t id) :
    Locks sys { s with txs := update s.txs t (some tx') } where
  disjoint := fun a b ta tb hab ha hb id hid hid' => by
    rcases update_some_eq ha with ⟨rfl, rfl⟩ | ⟨hat, hta⟩
    · obtain ⟨hba, htb⟩ := (update_some_eq hb).resolve_left fun h => hab h.1.symm
      exact hnew id hid ⟨b, tb, hba, htb, hid'⟩
    · rcases update_some_eq hb with ⟨rfl, rfl⟩ | ⟨-, htb⟩
      · exact hnew id hid' ⟨a, ta, hat, hta, hid⟩
      · exact h.disjoint a b ta tb hab hta htb id hid hid'
  free := fun hf => by have := h.free hf t; rw [htx] at this; cases this
  unmarked := fun u hu => by
    by_cases hut : u = t
    · subst hut
      exact h.unmarked u (by rw [htx]; rfl)
    · have hu : (update s.txs t (some tx') u).isSome := hu
      rw [update_of_ne hut] at hu
      exact h.unmarked u hu
  once := h.once
  unsent := fun hl hn m hm hp hu => h.unsent hl hn m hm hp fun u txu htxu hid => by
    by_cases hut : u = t
    · subst hut
      rw [htx] at htxu
      cases htxu
      exact hu u tx' (update_self _ _ _) (hsub _ hid)
    · exact hu u txu ((update_of_ne hut _ _).trans htxu) hid

theorem Inv.abort (h : Inv sys s) (ht : (s.txs t).isSome) : Inv sys (s.abortTx t) where
  core :=
    have hok : EventOk sys s.hist (.aborted (s.pass t)) := h.locks.unmarked t ht
    h.core.log hok trivial (Nat.le_refl _) (fun _ => rfl) (fun _ => rfl)
  locks :=
    have habort : ¬ NoAborts (s.abortTx t).hist := fun hn =>
      absurd (hn _ List.mem_cons_self) (by simp [Event.aborts])
    { disjoint := fun a b ta tb hab ha hb =>
        h.locks.disjoint a b ta tb hab (update_none_eq_some ha).2
          (update_none_eq_some hb).2
      free := fun hf => by
        have := h.locks.free hf t
        rw [this] at ht
        cases ht
      unmarked := fun u hu => by
        obtain ⟨tx, htx⟩ := Option.isSome_iff_exists.mp hu
        exact (markedIds_cons_of_none rfl).trans
          (h.locks.unmarked u (by rw [(update_none_eq_some htx).2]; rfl))
      once := fun _ hn => absurd hn habort
      unsent := fun _ hn => absurd hn habort }

theorem Locks.commit (h : Locks sys s) (htx : s.txs t = some tx)
    (hw : Wrote (s.pass t) tx.writes s s₁)
    (hsettled : sys.locking = true → NoAborts s.hist → ∀ id ∈ tx.locks,
      id ∈ marksOf tx.writes ∨ s.hist.countP (Event.accepts id) = 0) :
    Locks sys { s₁ with txs := update s.txs t none } := by
  obtain ⟨new, hhist, hnew⟩ := hw.hist
  have hcount : ∀ id, s₁.hist.countP (Event.accepts id) =
      s.hist.countP (Event.accepts id) := fun id => by
    rw [hhist]
    exact countP_accepts_append fun e he => (hnew e he).2.2 id
  have hn' : NoAborts s₁.hist → NoAborts s.hist := fun hn => by
    rw [hhist] at hn
    exact hn.of_append
  exact
    { disjoint := fun a b ta tb hab ha hb =>
        h.disjoint a b ta tb hab (update_none_eq_some ha).2 (update_none_eq_some hb).2
      free := fun hf => by have := h.free hf t; rw [htx] at this; cases this
      unmarked := fun u hu => by
        obtain ⟨txu, htxu⟩ := Option.isSome_iff_exists.mp hu
        obtain ⟨hut, htxu⟩ := update_none_eq_some htxu
        have hpass : ∀ e ∈ new, e.pass ≠ s.pass u := fun e he heq => by
          rw [(hnew e he).1] at heq
          exact hut (congrArg PassId.relay heq).symm
        change markedIds ⟨u, s₁.runs u⟩ s₁.hist = []
        rw [hw.runs, hhist]
        exact (markedIds_append_of_ne hpass).trans (h.unmarked u (by rw [htxu]; rfl))
      once := fun hl hn id => (hcount id).le.trans (h.once hl (hn' hn) id)
      unsent := fun hl hn m hm hp hu => by
        obtain ⟨hmark, m₀, hm₀, hid, hp₀⟩ := hw.pending m hm hp
        rw [hcount]
        by_cases hlocked : m.id ∈ tx.locks
        · exact (hsettled hl (hn' hn) _ hlocked).resolve_left hmark
        · rw [← hid]
          refine h.unsent hl (hn' hn) m₀ hm₀ hp₀ fun u txu htxu hmem => ?_
          rw [hid] at hmem
          by_cases hut : u = t
          · rw [hut, htx] at htxu
            cases htxu
            exact hlocked hmem
          · exact hu u txu ((update_of_ne hut _ _).trans htxu) hmem }

theorem Inv.delete (h : Inv sys s) {cond : Row → Bool}
    (hcond : ∀ m, cond m = true → m.publishedAt.isSome) :
    Inv sys { s with rows := s.rows.filter fun m => !cond m } where
  core :=
    { h.core with
      rows_nodup := (List.filter_sublist.map Row.id).nodup h.core.rows_nodup
      inserted := fun m hm => h.core.inserted m (List.mem_filter.mp hm).1
      kept := fun e he hc => by
        rcases h.core.kept e he hc with ⟨m, hm, hid⟩ | hmark
        · by_cases hdel : cond m = true
          · refine .inr ?_
            rw [← hid]
            exact (h.core.row_ok m hm).published.symm.trans (hcond m hdel)
          · exact .inl ⟨m, List.mem_filter.mpr ⟨hm, by simp [hdel]⟩, hid⟩
        · exact .inr hmark
      row_ok := fun m hm => h.core.row_ok m (List.mem_filter.mp hm).1 }
  locks :=
    { h.locks with
      unsent := fun hl hn m hm => h.locks.unsent hl hn m (List.mem_filter.mp hm).1 }

end Transactions

/-! ## The domain code and the worker loop -/

section Jobs

variable {sys : System} {s s' : St} {t : Tid}

variable {status : Status} {e : Entry} {x : Nat}

theorem mem_settle (he : e ∈ s.ledger) (hc : e.status = .committed) :
    e ∈ s.ledger.map (Entry.settle x status) :=
  List.mem_map.mpr ⟨e, he, by simp [Entry.settle, hc]⟩

@[simp] theorem settle_row (e : Entry) :
    (e.settle x status).row = e.row := by
  rw [Entry.settle]
  split <;> rfl

theorem settle_ids (x : Nat) (status : Status) (l : List Entry) :
    (l.map (Entry.settle x status)).map (·.row.id) = l.map (·.row.id) := by
  simp [Function.comp_def]

theorem settle_status (h : (e.settle x status).status = .committed) :
    e.status = .committed ∨
      (e.tx = x ∧ e.status = .inFlight ∧ status = .committed) := by
  rw [Entry.settle] at h
  split at h
  · next hx => exact .inr ⟨hx.1, hx.2, h⟩
  · exact .inl h

theorem Core.not_committed (h : Core sys s) (he : e ∈ s.ledger) (hs : e.status = .inFlight) :
    ¬ Committed s.ledger e.row.id := by
  rintro ⟨e', he', hc, hid⟩
  rw [h.entry_eq he' he hid, hs] at hc
  cases hc

theorem mem_inFlight {m : Row} (h : m ∈ s.inFlight x) :
    ∃ e ∈ s.ledger, e.tx = x ∧ e.status = .inFlight ∧ e.row = m := by
  obtain ⟨e, he, rfl⟩ := List.mem_map.mp h
  obtain ⟨he, hx⟩ := List.mem_filter.mp he
  exact ⟨e, he, (of_decide_eq_true hx).1, (of_decide_eq_true hx).2, rfl⟩

theorem Core.silent (h : Core sys s) (he : e ∈ s.ledger) (hs : e.status = .inFlight) :
    RowOk s.hist e.row ∧ s.hist.countP (Event.accepts e.row.id) = 0 := by
  have hno := h.not_committed he hs
  obtain ⟨hpub, hfail, hatt⟩ := h.fresh e he
  have hsilent := fun ev hev => (h.known ev hev).silent hno
  refine ⟨⟨?_, ?_, .inl hpub, ?_⟩, ?_⟩
  · rw [hpub]
    exact (List.any_eq_false.mpr fun ev hev => by simp [(hsilent ev hev).1]).symm
  · rw [hfail]
    refine (List.any_eq_false.mpr fun ev hev => ?_).symm
    have hrec := (hsilent ev hev).2.1
    cases ev with
    | recorded => simp_all [Event.records, Event.quarantines]
    | handed | marked | aborted | returned => exact Bool.false_ne_true
  · rw [hatt]
    exact (List.countP_eq_zero.mpr fun ev hev => by simp [(hsilent ev hev).2.1]).symm
  · exact List.countP_eq_zero.mpr fun ev hev => by simp [(hsilent ev hev).2.2]

theorem Core.commitRows (h : Core sys s) (x : Nat) :
    Core sys { s with
      rows := s.rows ++ s.inFlight x
      ledger := s.ledger.map (Entry.settle x .committed) } where
  ledger_nodup := by
    rw [settle_ids]
    exact h.ledger_nodup
  rows_nodup := by
    rw [List.map_append, List.nodup_append]
    refine ⟨h.rows_nodup, ?_, ?_⟩
    · rw [St.inFlight, List.map_map]
      exact (List.filter_sublist.map _).nodup h.ledger_nodup
    · rintro i hi j hj rfl
      obtain ⟨m, hm, rfl⟩ := List.mem_map.mp hi
      obtain ⟨m', hm', hid⟩ := List.mem_map.mp hj
      obtain ⟨e, he, -, hs, rfl⟩ := mem_inFlight hm'
      exact h.not_committed he hs (hid ▸ h.committed hm)
  fresh := fun e he => by
    obtain ⟨e₀, he₀, rfl⟩ := List.mem_map.mp he
    rw [settle_row]
    exact h.fresh e₀ he₀
  inserted := fun m hm => by
    rcases List.mem_append.mp hm with hm | hm
    · obtain ⟨e, he, hc, hrest⟩ := h.inserted m hm
      exact ⟨e, mem_settle he hc, hc, hrest⟩
    · obtain ⟨e, he, hx, hs, rfl⟩ := mem_inFlight hm
      exact ⟨_, List.mem_map_of_mem he, by simp [Entry.settle, hx, hs], by simp,
        by simp, by simp⟩
  kept := fun e he hc => by
    obtain ⟨e₀, he₀, rfl⟩ := List.mem_map.mp he
    rw [settle_row]
    rcases settle_status hc with hc₀ | ⟨hx, hs, -⟩
    · exact (h.kept e₀ he₀ hc₀).imp_left fun ⟨m, hm, hid⟩ =>
        ⟨m, List.mem_append_left _ hm, hid⟩
    · refine .inl ⟨e₀.row, List.mem_append_right _ ?_, rfl⟩
      exact List.mem_map.mpr ⟨e₀, List.mem_filter.mpr ⟨he₀, by simp [hx, hs]⟩, rfl⟩
  known := fun e he => (h.known e he).mono fun e' he' hc => mem_settle he' hc
  row_ok := fun m hm => by
    rcases List.mem_append.mp hm with hm | hm
    · exact h.row_ok m hm
    · obtain ⟨e, he, -, hs, rfl⟩ := mem_inFlight hm
      exact (h.silent he hs).1
  hist_ok := h.hist_ok
  started := h.started

theorem Inv.env (h : Inv sys s) (hstep : Env sys.json s s') : Inv sys s' := by
  cases hstep with
  | enqueue henq hid =>
    obtain ⟨-, -, hpub, hfail, hatt⟩ := enqueue_fresh henq
    exact
      { core :=
          { h.core with
            ledger_nodup := List.nodup_cons.mpr ⟨hid, h.core.ledger_nodup⟩
            fresh := List.forall_mem_cons.mpr ⟨⟨hpub, hfail, hatt⟩, h.core.fresh⟩
            inserted := fun m hm =>
              let ⟨e, he, hrest⟩ := h.core.inserted m hm
              ⟨e, List.mem_cons_of_mem _ he, hrest⟩
            kept := List.forall_mem_cons.mpr ⟨fun hc => (nomatch hc), h.core.kept⟩
            known := fun e he => (h.core.known e he).mono fun _ he' _ =>
              List.mem_cons_of_mem _ he' }
        locks := { h.locks with } }
  | commit x =>
    exact
      { core := h.core.commitRows x
        locks :=
          { h.locks with
            unsent := fun hl hn m hm hp hu => by
              rcases List.mem_append.mp hm with hm | hm
              · exact h.locks.unsent hl hn m hm hp hu
              · obtain ⟨e, he, -, hs, rfl⟩ := mem_inFlight hm
                exact (h.core.silent he hs).2 } }
  | rollback x =>
    exact
      { core :=
          { h.core with
            ledger_nodup := by rw [settle_ids]; exact h.core.ledger_nodup
            fresh := fun e he => by
              obtain ⟨e₀, he₀, rfl⟩ := List.mem_map.mp he
              rw [settle_row]
              exact h.core.fresh e₀ he₀
            inserted := fun m hm =>
              let ⟨e, he, hc, hrest⟩ := h.core.inserted m hm
              ⟨e, mem_settle he hc, hc, hrest⟩
            kept := fun e he hc => by
              obtain ⟨e₀, he₀, rfl⟩ := List.mem_map.mp he
              rw [settle_row]
              rcases settle_status hc with hc₀ | ⟨-, -, hbad⟩
              · exact h.core.kept e₀ he₀ hc₀
              · cases hbad
            known := fun e he => (h.core.known e he).mono fun _ he' hc =>
              mem_settle he' hc }
        locks := { h.locks with } }

theorem Inv.start (h : Inv sys s) (hnone : s.txs t = none) :
    Inv sys { s with runs := update s.runs t (s.runs t + 1) } where
  core :=
    { h.core with
      started := fun e he => by
        have hle := h.core.started e he
        change _ ≤ update s.runs t (s.runs t + 1) _
        by_cases ht : e.pass.relay = t
        · rw [ht, update_self]
          rw [ht] at hle
          omega
        · rwa [update_of_ne ht] }
  locks :=
    { h.locks with
      unmarked := fun u hu => by
        have hut : u ≠ t := fun heq => by
          have hu : (s.txs u).isSome := hu
          rw [heq, hnone] at hu
          cases hu
        change markedIds ⟨u, update s.runs t (s.runs t + 1) u⟩ s.hist = []
        rw [update_of_ne hut]
        exact h.locks.unmarked u hu }

theorem Inv.finish (h : Inv sys s) :
    Inv sys { s with
      hist := .returned (s.pass t) (markedIds (s.pass t) s.hist).length :: s.hist } where
  core :=
    have hok : EventOk sys s.hist
        (.returned (s.pass t) (markedIds (s.pass t) s.hist).length) := rfl
    h.core.log hok trivial (Nat.le_refl _) (fun _ => rfl) (fun _ => rfl)
  locks := h.locks.log (fun _ => rfl) fun _ _ _ he => nomatch he

end Jobs

end Microjet.Outbox
