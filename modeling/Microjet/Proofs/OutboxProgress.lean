import Mathlib.Algebra.Order.BigOperators.Group.List
import Mathlib.Algebra.Order.Group.Nat
import Microjet.Lib.Sorted
import Microjet.Outbox.Quiet
import Microjet.Proofs.OutboxInv

/-!
# Progress past failing messages

A relay is left alone with a backlog, and the broker refuses some messages forever. In a `Round`
the oldest pending rows, as many as a batch holds, are published or get one more failure; without
a limit on failures they stay at the head.
-/

namespace Microjet.Outbox

open Errorx Messaging Conc

/-- The broker refuses the row, or it has no message. -/
def fails (json : HeaderJSON) (bad : Nat → Bool) (m : Row) : Bool :=
  match m.message json with
  | .error _ => true
  | .ok _ => bad m.id

/-- What is written of a row that was tried. -/
structure Outcome (r : Relay) (failing : Bool) (m : Row) (v : Values) : Prop where
  published : v.publishedAt.isSome = !failing
  failed : v.failedAt.isSome = true ↔
    failing = true ∧ 0 < r.maxAttempts ∧ r.maxAttempts ≤ m.attempts + 1
  attempts : v.attempts = if failing then some (m.attempts + 1) else none

/-! ## What one pass does

`Did` follows the table as the relay sees it, which is the committed table on
the lock-free path and the table under its own writes inside a transaction. -/

def updateAll (ws : List (Nat × Values)) (rows : List Row) : List Row :=
  ws.foldl (fun rows w => updateRows w.2 w.1 rows) rows

/-- Thread `t` has made the updates, and nothing else has changed. -/
structure Did (t : Tid) (ws : List (Nat × Values)) (s s' : St) : Prop where
  view : s'.view t = updateAll ws (s.view t)
  others : ∀ u, u ≠ t → s'.txs u = s.txs u
  inside : (s'.txs t).isSome = (s.txs t).isSome

section Pass

variable {json : HeaderJSON} {r : Relay} {bad : Nat → Bool} {clock : St → Time}
  {t : Tid} {s s' s'' : St} {m : Row} {v : Values} {ws ws' : List (Nat × Values)}

theorem Did.refl : Did t [] s s := ⟨rfl, fun _ _ => rfl, rfl⟩

theorem Did.trans (h : Did t ws s s') (h' : Did t ws' s' s'') :
    Did t (ws ++ ws') s s'' where
  view := by rw [h'.view, h.view, updateAll, updateAll, updateAll, List.foldl_append]
  others := fun u hu => (h'.others u hu).trans (h.others u hu)
  inside := h'.inside.trans h.inside

theorem Did.log (e : Event) : Did t [] s { s with hist := e :: s.hist } where
  view := by rw [St.view, St.view]; rfl
  others := fun _ _ => rfl
  inside := rfl

@[simp] theorem write_rows (p : PassId) (s : St) (w : Nat × Values) :
    (s.write p w).rows = updateRows w.2 w.1 s.rows := by
  rw [St.write]
  split
  · rfl
  · next hno =>
      rw [updateRows]
      refine (List.map_id s.rows).symm.trans (List.map_congr_left fun m hm => ?_)
      have hne : m.id ≠ w.1 := fun heq =>
        hno (List.any_eq_true.mpr ⟨m, hm, by simp [heq]⟩)
      exact (if_neg hne).symm

theorem did_update (id : Nat) :
    Did t [(id, v)] s (serve bad clock t (.update v id) s).2 := by
  cases htx : s.txs t with
  | none =>
    have hs' : (serve bad clock t (.update v id) s).2 = s.write (s.pass t) (id, v) := by
      simp only [serve, htx]
    rw [hs']
    exact ⟨by simp [St.view, htx, updateAll], fun u _ => by rw [write_txs],
      by rw [write_txs]⟩
  | some tx =>
    have hs' : (serve bad clock t (.update v id) s).2 = { s with
        txs := Function.update s.txs t
          (some ⟨id :: tx.locks, tx.writes ++ [(id, v)]⟩) } := by
      simp only [serve, htx]
    rw [hs']
    exact ⟨by simp [St.view, htx, updateAll], fun u hu => Function.update_of_ne hu _ _,
      by simp [htx]⟩

theorem Did.lock (ids : List Nat) : Did t [] s (s.lock t ids) := by
  rw [St.lock]
  split
  · exact .refl
  · next tx htx =>
      exact ⟨by simp [St.view, htx, updateAll], fun u hu => Function.update_of_ne hu _ _,
        by simp [htx]⟩

theorem foldl_write_rows (p : PassId) (ws : List (Nat × Values)) (s : St) :
    (ws.foldl (St.write p) s).rows = updateAll ws s.rows := by
  induction ws generalizing s with
  | nil => rfl
  | cons w ws ih =>
    rw [List.foldl_cons, ih, write_rows]
    rfl

theorem commitTx_rows {tx : Tx} (htx : s.txs t = some tx) :
    (s.commitTx t tx).rows = s.view t := by
  rw [St.view, htx]
  exact foldl_write_rows _ _ _

theorem runWith_transaction {fn : Code (Nat × Option Err)} {k : Nat} {tx : Tx}
    (hfn : fn.runWith (serve bad clock t)
      { s with txs := Function.update s.txs t (some {}) } = ((k, none), s'))
    (htx : s'.txs t = some tx) :
    (transaction 0 fn).runWith (serve bad clock t) s =
      ((k, none), s'.commitTx t tx) := by
  rw [transaction, runWith_begin]
  dsimp only
  rw [Prog.runWith_bind_of hfn]
  dsimp only
  rw [runWith_commit htx]
  rfl

variable (json r bad clock t)

theorem runWith_recordFailure (cause : Err) (s : St) :
    ∃ v s', (recordFailure r m cause).runWith (serve bad clock t) s = (none, s') ∧
      Outcome r true m v ∧ Did t [(m.id, v)] s s' := by
  unfold recordFailure
  dsimp only
  split
  · next hmax =>
      refine ⟨_, _, rfl, ⟨rfl, ?_, rfl⟩, did_update m.id⟩
      simp only [true_and]
      exact iff_of_true rfl hmax
  · next hmax =>
      refine ⟨_, _, rfl, ⟨rfl, ?_, rfl⟩, did_update m.id⟩
      simpa using hmax

theorem runWith_publishOne (s : St) :
    ∃ v s', (publishOne json r m).runWith (serve bad clock t) s =
        ((!fails json bad m, none), s') ∧
      Outcome r (fails json bad m) m v ∧ Did t [(m.id, v)] s s' := by
  unfold publishOne fails
  cases m.message json with
  | error err =>
    obtain ⟨v, s', hrun, hout, hdid⟩ :=
      runWith_recordFailure r bad clock t (m := m) err s
    exact ⟨v, s', by rw [Prog.runWith_bind_of hrun]; rfl, hout, hdid⟩
  | ok msg =>
    dsimp only
    have hlog := fun ok => Did.log (t := t) (s := s) (.handed (s.pass t) m.id msg ok)
    rw [runWith_publish]
    cases hbad : bad m.id with
    | true =>
      obtain ⟨v, s', hrun, hout, hdid⟩ := runWith_recordFailure r bad clock t
        (m := m) refused
        { s with hist := .handed (s.pass t) m.id msg false :: s.hist }
      refine ⟨v, s', ?_, hout, (hlog false).trans hdid⟩
      rw [if_pos rfl]
      dsimp only [Option.isNone_some]
      rw [Prog.runWith_bind_of hrun]
      rfl
    | false =>
      exact ⟨_, _, rfl, ⟨rfl, by simp, rfl⟩, (hlog true).trans (did_update m.id)⟩

theorem runWith_drain (stop : Bool) (rows : List Row) (n : Nat) (s : St) :
    ∃ k ws s', (drain json r stop rows n).runWith (serve bad clock t) s = ((k, none), s') ∧
      List.Forall₂ (fun m w => w.1 = m.id ∧ Outcome r (fails json bad m) m w.2) rows ws ∧
      Did t ws s s' := by
  induction rows generalizing n s with
  | nil => exact ⟨n, [], s, rfl, .nil, .refl⟩
  | cons m rows ih =>
    obtain ⟨v, s₁, hrun, hout, hdid⟩ := runWith_publishOne json r bad clock t
      (m := m) s
    obtain ⟨k, ws, s₂, hrest, hall, hdid'⟩ :=
      ih (if !fails json bad m then n + 1 else n) s₁
    refine ⟨k, (m.id, v) :: ws, s₂, ?_, .cons ⟨rfl, hout⟩ hall, hdid.trans hdid'⟩
    rw [drain, runWith_ctxErr]
    dsimp only
    rw [Prog.runWith_bind_of hrun]
    exact hrest

/-- The rows of the next pass. -/
def batch (r : Relay) (rows : List Row) : List Row :=
  Query.eval ⟨Row.pending, r.batchSize, r.locking⟩ rows

/-- Each row has got its update. -/
def Handled (json : HeaderJSON) (r : Relay) (bad : Nat → Bool) (rows : List Row)
    (ws : List (Nat × Values)) : Prop :=
  List.Forall₂ (fun m w => w.1 = m.id ∧ Outcome r (fails json bad m) m w.2) rows ws

theorem runWith_batch (s : St) :
    ∃ k ws s', (do match ← pendingRows r r.locking with
                   | .error err => return (0, some err)
                   | .ok rows => drain json r r.locking rows 0 :
        Code (Nat × Option Err)).runWith (serve bad clock t) s = ((k, none), s') ∧
      Handled json r bad (batch r (s.view t)) ws ∧ Did t ws s s' := by
  obtain ⟨k, ws, s', hrun, hall, hdid⟩ := runWith_drain json r bad clock t r.locking
    (batch r (s.view t)) 0
    (if r.locking then s.lock t ((batch r (s.view t)).map Row.id) else s)
  refine ⟨k, ws, s', hrun, hall, ?_⟩
  split at hdid
  · exact (Did.lock _).trans hdid
  · exact hdid

theorem runWith_publishPending (hnone : s.txs t = none) :
    ∃ res ws s', (publishPending json r).runWith (serve bad clock t) s = (res, s') ∧
      Handled json r bad (batch r s.rows) ws ∧ s'.rows = updateAll ws s.rows ∧
      ∀ u, s'.txs u = s.txs u := by
  have hview : s.view t = s.rows := by rw [St.view, hnone]
  unfold publishPending
  cases hl : r.locking with
  | true =>
    obtain ⟨k, ws, s', hrun, hall, hdid⟩ := runWith_batch json r bad clock t
      { s with txs := Function.update s.txs t (some {}) }
    rw [hl] at hrun
    have hview' : St.view { s with txs := Function.update s.txs t (some {}) } t =
        s.rows := by simp [St.view]
    rw [hview'] at hall
    obtain ⟨tx, htx⟩ : ∃ tx, s'.txs t = some tx := by
      refine Option.isSome_iff_exists.mp (hdid.inside.trans ?_)
      simp
    refine ⟨(k, none), ws, s'.commitTx t tx, ?_, hall, ?_, fun u => ?_⟩
    · rw [if_pos rfl, publishPendingLocked]
      exact Prog.runWith_bind_of (runWith_transaction hrun htx) _
    · rw [commitTx_rows htx, hdid.view, hview']
    · change Function.update s'.txs t none u = s.txs u
      by_cases hut : u = t
      · rw [hut, Function.update_self, hnone]
      · rw [Function.update_of_ne hut, hdid.others u hut]
        exact Function.update_of_ne hut _ _
  | false =>
    obtain ⟨k, ws, s', hrun, hall, hdid⟩ := runWith_batch json r bad clock t s
    rw [hl] at hrun
    rw [hview] at hall
    have hnone' : s'.txs t = none := by
      rw [← Option.not_isSome_iff_eq_none, hdid.inside, hnone]
      exact Bool.false_ne_true
    refine ⟨(k, none), ws, s', by rw [if_neg Bool.false_ne_true]; exact hrun, hall, ?_,
      fun u => ?_⟩
    · have hv := hdid.view
      rw [hview, St.view, hnone'] at hv
      exact hv
    · by_cases hut : u = t
      · rw [hut, hnone, hnone']
      · exact hdid.others u hut

end Pass

/-! ## Rounds -/

/-- What one pass does to the rows. -/
structure Round (r : Relay) (failing : Row → Bool) (rows : List Row)
    (f : Row → Row) : Prop where
  rest : ∀ m ∈ rows, m ∉ batch r rows → f m = m
  done : ∀ m ∈ batch r rows, ∃ v, Outcome r (failing m) m v ∧ f m = v.apply m

section Updates

variable {json : HeaderJSON} {r : Relay} {bad : Nat → Bool} {m : Row} {v : Values}
  {rows : List Row} {ws : List (Nat × Values)}

def updateRow (ws : List (Nat × Values)) (m : Row) : Row :=
  ws.foldl (fun m w => if m.id = w.1 then w.2.apply m else m) m

theorem updateAll_eq_map : updateAll ws rows = rows.map (updateRow ws) := by
  induction ws generalizing rows with
  | nil => exact (List.map_id rows).symm
  | cons w ws ih =>
    change updateAll ws (updateRows w.2 w.1 rows) = _
    rw [ih, updateRows, List.map_map]
    rfl

theorem updateRow_of_notMem (h : m.id ∉ ws.map Prod.fst) : updateRow ws m = m := by
  induction ws with
  | nil => rfl
  | cons w ws ih =>
    rw [List.map_cons, List.mem_cons, not_or] at h
    change updateRow ws (if m.id = w.1 then w.2.apply m else m) = m
    rw [if_neg h.1]
    exact ih h.2

theorem updateRow_of_mem (hnodup : (ws.map Prod.fst).Nodup) (h : (m.id, v) ∈ ws) :
    updateRow ws m = v.apply m := by
  induction ws with
  | nil => cases h
  | cons w ws ih =>
    rw [List.map_cons, List.nodup_cons] at hnodup
    change updateRow ws (if m.id = w.1 then w.2.apply m else m) = v.apply m
    rcases List.mem_cons.mp h with rfl | h
    · rw [if_pos rfl]
      exact updateRow_of_notMem hnodup.1
    · have hne : m.id ≠ w.1 := fun heq =>
        hnodup.1 (heq ▸ List.mem_map_of_mem (f := Prod.fst) h)
      rw [if_neg hne]
      exact ih hnodup.2 h

theorem Handled.ids (h : Handled json r bad rows ws) :
    ws.map Prod.fst = rows.map Row.id := by
  induction h with
  | nil => rfl
  | cons hw _ ih => rw [List.map_cons, List.map_cons, hw.1, ih]

theorem Handled.outcome (h : Handled json r bad rows ws) (hm : m ∈ rows) :
    ∃ v, (m.id, v) ∈ ws ∧ Outcome r (fails json bad m) m v := by
  induction h with
  | nil => cases hm
  | @cons m' w _ _ hw _ ih =>
    rcases List.mem_cons.mp hm with rfl | hm
    · exact ⟨w.2, by rw [← hw.1]; exact List.mem_cons_self, hw.2⟩
    · obtain ⟨v, hv, hout⟩ := ih hm
      exact ⟨v, List.mem_cons_of_mem _ hv, hout⟩

theorem mem_batch (h : m ∈ batch r rows) : m ∈ rows ∧ m.pending = true := mem_eval h

theorem Handled.round (hnodup : (rows.map Row.id).Nodup)
    (h : Handled json r bad (batch r rows) ws) :
    Round r (fails json bad) rows (updateRow ws) where
  rest := fun m hm hno => by
    refine updateRow_of_notMem fun hmem => hno ?_
    rw [h.ids] at hmem
    obtain ⟨m', hm', hid⟩ := List.mem_map.mp hmem
    rwa [← List.inj_on_of_nodup_map hnodup (mem_batch hm').1 hm hid]
  done := fun m hm => by
    obtain ⟨v, hv, hout⟩ := h.outcome hm
    exact ⟨v, hout, updateRow_of_mem (by rw [h.ids]; exact eval_nodup hnodup) hv⟩

end Updates

/-! ## Which rows a round reaches -/

section Rounds

variable {json : HeaderJSON} {r : Relay} {bad : Nat → Bool} {m : Row}
  {rows : List Row} {f : Row → Row}

/-- How many failing rows are older. -/
def olderFailing (json : HeaderJSON) (bad : Nat → Bool) (rows : List Row)
    (id : Nat) : Nat :=
  rows.countP fun m => m.pending && fails json bad m && decide (m.id < id)

theorem mem_batch_iff (hnodup : (rows.map Row.id).Nodup) (hm : m ∈ rows)
    (hp : m.pending = true) :
    m ∈ batch r rows ↔
      rows.countP (fun a => a.pending && decide (a.id < m.id)) < r.batchSize := by
  have hsort := Sorted.pairwise_insertionSort Row.id
    ((List.filter_sublist (p := Row.pending).map _).nodup hnodup)
  have hmem : m ∈ (rows.filter Row.pending).insertionSort fun a b => a.id ≤ b.id :=
    (List.mem_insertionSort _).mpr (List.mem_filter.mpr ⟨hm, hp⟩)
  rw [batch, Query.eval, Sorted.mem_take_iff hsort hmem,
    (List.perm_insertionSort _ _).countP_eq, List.countP_filter]
  simp only [Bool.and_comm]

theorem fails_apply (v : Values) (m : Row) :
    fails json bad (v.apply m) = fails json bad m := rfl

section

variable (h : Round r (fails json bad) rows f)

include h

theorem Round.cases (hm : m ∈ rows) :
    (m ∉ batch r rows ∧ f m = m) ∨
      m ∈ batch r rows ∧ ∃ v, Outcome r (fails json bad m) m v ∧ f m = v.apply m := by
  by_cases hb : m ∈ batch r rows
  · exact .inr ⟨hb, h.done m hb⟩
  · exact .inl ⟨hb, h.rest m hm hb⟩

theorem Round.id_eq (hm : m ∈ rows) :
    (f m).id = m.id := by
  rcases h.cases hm with ⟨-, heq⟩ | ⟨-, v, -, heq⟩ <;> rw [heq]
  rfl

theorem Round.fails_eq (hm : m ∈ rows) :
    fails json bad (f m) = fails json bad m := by
  rcases h.cases hm with ⟨-, heq⟩ | ⟨-, v, -, heq⟩ <;> rw [heq]
  exact fails_apply v m

theorem Round.pending_of (hm : m ∈ rows) (hp : (f m).pending = true) : m.pending = true := by
  rcases h.cases hm with ⟨-, heq⟩ | ⟨hb, -⟩
  · rwa [heq] at hp
  · exact (mem_batch hb).2

theorem Round.published (hb : m ∈ batch r rows) (hok : fails json bad m = false) :
    (f m).publishedAt.isSome = true := by
  obtain ⟨v, hout, heq⟩ := h.done m hb
  have hpub := hout.published
  rw [hok] at hpub
  rw [heq, Values.apply]
  simpa using Or.inl hpub

theorem Round.pending_eq (hm : m ∈ rows)
    (hmax : r.maxAttempts = 0) (hbad : fails json bad m = true) :
    (f m).pending = m.pending := by
  rcases h.cases hm with ⟨-, heq⟩ | ⟨hb, v, hout, heq⟩
  · rw [heq]
  · have hpub := hout.published
    have hfail := hout.failed
    rw [hbad] at hpub
    simp only [hmax, Nat.lt_irrefl, false_and, and_false, iff_false] at hfail
    rw [heq, (mem_batch hb).2, pending_iff]
    obtain ⟨hp, hf⟩ := pending_iff.mp (mem_batch hb).2
    simp only [Values.apply, hp, hf, Option.or_none]
    exact ⟨by simpa using hpub, by simpa using hfail⟩

theorem Round.olderFailing_eq (hmax : r.maxAttempts = 0) (id : Nat) :
    olderFailing json bad (rows.map f) id = olderFailing json bad rows id := by
  rw [olderFailing, olderFailing, List.countP_map]
  refine List.countP_congr fun m hm => ?_
  simp only [Function.comp_apply, h.fails_eq hm, h.id_eq hm]
  cases hbad : fails json bad m with
  | true => rw [h.pending_eq hm hmax hbad]
  | false => simp

end

/-! A round never adds to the weight of the backlog: the attempts a failing row
has left if there is a limit, and one for every healthy row. -/

/-- The attempts that are left. -/
def weight (json : HeaderJSON) (r : Relay) (bad : Nat → Bool) (m : Row) : Nat :=
  if m.pending then
    if fails json bad m then
      r.maxAttempts - m.attempts + if 0 < r.maxAttempts then 1 else 0
    else 1
  else 0

theorem weight_lt (h : Round r (fails json bad) rows f) (hb : m ∈ batch r rows)
    (hok : 0 < r.maxAttempts ∨ fails json bad m = false) :
    weight json r bad (f m) < weight json r bad m := by
  obtain ⟨v, hout, heq⟩ := h.done m hb
  obtain ⟨hrow, hp⟩ := mem_batch hb
  rw [weight, weight, h.fails_eq hrow, if_pos hp]
  cases hbad : fails json bad m with
  | false =>
    have hpub := h.published hb hbad
    have hnot : (f m).pending = false := by
      rw [Row.pending, Option.isNone_eq_false_iff.mpr hpub, Bool.false_and]
    simp [hnot]
  | true =>
    have hmax : 0 < r.maxAttempts := hok.resolve_right (by simp [hbad])
    have hatt : (f m).attempts = m.attempts + 1 := by
      rw [heq, Values.apply, hout.attempts, hbad]
      rfl
    simp only [if_true, if_pos hmax, hatt]
    split
    · next hp' =>
        have hfail := hout.failed
        rw [hbad] at hfail
        have hnone : v.failedAt = none := by
          rw [heq] at hp'
          have := (pending_iff.mp hp').2
          simp only [Values.apply, Option.or_eq_none_iff] at this
          exact this.1
        rw [hnone] at hfail
        have : ¬ r.maxAttempts ≤ m.attempts + 1 := fun hle =>
          absurd (hfail.mpr ⟨rfl, hmax, hle⟩) (by simp)
        omega
    · omega

theorem weight_le (h : Round r (fails json bad) rows f) (hm : m ∈ rows) :
    weight json r bad (f m) ≤ weight json r bad m := by
  rcases h.cases hm with ⟨-, heq⟩ | ⟨hb, -⟩
  · rw [heq]
  · by_cases hok : 0 < r.maxAttempts ∨ fails json bad m = false
    · exact (weight_lt h hb hok).le
    · rw [not_or, Nat.not_lt, Nat.le_zero, Bool.not_eq_false] at hok
      rw [weight, h.fails_eq hm, hok.1, hok.2]
      simp

theorem exists_oldest {P : Row → Prop} (h : ∃ m ∈ rows, P m) :
    ∃ m ∈ rows, P m ∧ ∀ m' ∈ rows, P m' → m.id ≤ m'.id := by
  classical
  have hid : ∃ id, ∃ m ∈ rows, P m ∧ m.id = id :=
    let ⟨m, hm, hP⟩ := h
    ⟨m.id, m, hm, hP, rfl⟩
  obtain ⟨m, hm, hP, hmin⟩ := Nat.find_spec hid
  exact ⟨m, hm, hP, fun m' hm' hP' => hmin.trans_le (Nat.find_min' hid ⟨m', hm', hP', rfl⟩)⟩

/-- Failures are limited, or no healthy row has a batch of failing rows ahead of
it. -/
def Unblocked (json : HeaderJSON) (r : Relay) (bad : Nat → Bool) (rows : List Row) :
    Prop :=
  0 < r.maxAttempts ∨ ∀ m ∈ rows, m.pending = true → fails json bad m = false →
    olderFailing json bad rows m.id < r.batchSize

/-- With a healthy row left, the oldest pending or the oldest healthy one loses weight. -/
theorem Unblocked.reach (h : Unblocked json r bad rows)
    (hnodup : (rows.map Row.id).Nodup)
    (hleft : ∃ m ∈ rows, m.pending = true ∧ fails json bad m = false) :
    ∃ m ∈ batch r rows, 0 < r.maxAttempts ∨ fails json bad m = false := by
  rcases h with hmax | hroom
  · obtain ⟨m, hm, hp, hold⟩ := exists_oldest (P := fun m => m.pending = true)
      (hleft.imp fun m h => ⟨h.1, h.2.1⟩)
    refine ⟨m, (mem_batch_iff hnodup hm hp).mpr ?_, .inl hmax⟩
    rw [List.countP_eq_zero.mpr]
    · exact r.batchSize_pos
    · intro a ha
      simp only [Bool.and_eq_true, decide_eq_true_eq, not_and, Nat.not_lt]
      exact hold a ha
  · obtain ⟨m, hm, ⟨hp, hok⟩, hold⟩ :=
      exists_oldest (P := fun m => m.pending = true ∧ fails json bad m = false) hleft
    refine ⟨m, (mem_batch_iff hnodup hm hp).mpr ?_, .inr hok⟩
    refine Nat.lt_of_le_of_lt (List.countP_mono_left fun a ha hlt => ?_) (hroom m hm hp hok)
    simp only [Bool.and_eq_true, decide_eq_true_eq] at hlt
    have hbad : fails json bad a = true := by
      by_contra hne
      exact absurd (hold a ha ⟨hlt.1, by simpa using hne⟩) (by omega)
    simp [hlt, hbad]

theorem Unblocked.round (h : Unblocked json r bad rows)
    (hround : Round r (fails json bad) rows f) : Unblocked json r bad (rows.map f) := by
  by_cases hmax : 0 < r.maxAttempts
  · exact .inl hmax
  · refine .inr fun m' hm' hp hok => ?_
    obtain ⟨m, hm, rfl⟩ := List.mem_map.mp hm'
    rw [hround.olderFailing_eq (by omega), hround.id_eq hm]
    rw [hround.fails_eq hm] at hok
    exact h.resolve_left hmax m hm (hround.pending_of hm hp) hok

end Rounds

/-! ## Passes over a backlog -/

/-- A state without transactions. -/
structure Backlog where
  st : St
  ids_nodup : (st.rows.map Row.id).Nodup
  no_txs : ∀ u, st.txs u = none

section Passes

variable (sys : System) (bad : Nat → Bool) (clock : St → Time)

theorem exists_round (b : Backlog) :
    ∃ f, (runPass sys bad clock leader b.st).rows = b.st.rows.map f ∧
      Round (sys.relay leader) (fails sys.json bad) b.st.rows f ∧
      ∀ u, (runPass sys bad clock leader b.st).txs u = none := by
  obtain ⟨res, ws, s', hrun, hall, hrows, htxs⟩ := runWith_publishPending sys.json
    (sys.relay leader) bad clock leader (s := b.st.started leader) (b.no_txs leader)
  refine ⟨updateRow ws, ?_, hall.round b.ids_nodup, fun u => ?_⟩
  · rw [runPass, hrun]
    exact hrows.trans updateAll_eq_map
  · rw [runPass, hrun]
    exact (htxs u).trans (b.no_txs u)

/-- One pass later. -/
def Backlog.pass (b : Backlog) : Backlog where
  st := runPass sys bad clock leader b.st
  ids_nodup := by
    obtain ⟨f, hrows, hround, -⟩ := exists_round sys bad clock b
    have hids : (b.st.rows.map f).map Row.id = b.st.rows.map Row.id := by
      rw [List.map_map]
      exact List.map_congr_left fun m hm => hround.id_eq hm
    rw [hrows, hids]
    exact b.ids_nodup
  no_txs := (exists_round sys bad clock b).choose_spec.2.2

def Backlog.passes : Nat → Backlog → Backlog
  | 0, b => b
  | n + 1, b => Backlog.passes n (b.pass sys bad clock)

def Backlog.Published (b : Backlog) (id : Nat) : Prop :=
  ∃ m ∈ b.st.rows, m.id = id ∧ m.publishedAt.isSome = true

theorem Backlog.round (b : Backlog) :
    ∃ f, (b.pass sys bad clock).st.rows = b.st.rows.map f ∧
      Round (sys.relay leader) (fails sys.json bad) b.st.rows f :=
  let ⟨f, hrows, hround, _⟩ := exists_round sys bad clock b
  ⟨f, hrows, hround⟩

variable {sys bad}

/-- If the backlog is not blocked, some number of passes leaves no healthy row pending. -/
theorem exists_drained (b : Backlog)
    (h : Unblocked sys.json (sys.relay leader) bad b.st.rows) :
    ∃ n, ∀ m ∈ (b.passes sys bad clock n).st.rows, m.pending = true →
      fails sys.json bad m = true := by
  induction hw : (b.st.rows.map (weight sys.json (sys.relay leader) bad)).sum
    using Nat.strong_induction_on generalizing b with
  | _ w ih =>
    by_cases hleft : ∃ m ∈ b.st.rows, m.pending = true ∧ fails sys.json bad m = false
    · obtain ⟨f, hrows, hround⟩ := b.round sys bad clock
      obtain ⟨m, hm, hok⟩ := h.reach b.ids_nodup hleft
      have hlt : ((b.pass sys bad clock).st.rows.map
          (weight sys.json (sys.relay leader) bad)).sum < w := by
        rw [← hw, hrows, List.map_map]
        exact List.sum_lt_sum _ _ (fun m hm => weight_le hround hm)
          ⟨m, (mem_batch hm).1, weight_lt hround hm hok⟩
      obtain ⟨n, hn⟩ := ih _ hlt (b.pass sys bad clock)
        (by rw [hrows]; exact h.round hround) rfl
      exact ⟨n + 1, hn⟩
    · refine ⟨0, fun m hm hp => ?_⟩
      by_contra hbad
      exact hleft ⟨m, hm, hp, by simpa using hbad⟩

theorem healthy_kept (n : Nat) (b : Backlog) {m : Row} (hm : m ∈ b.st.rows)
    (hok : fails sys.json bad m = false)
    (hst : m.pending = true ∨ m.publishedAt.isSome = true) :
    ∃ m' ∈ (b.passes sys bad clock n).st.rows, m'.id = m.id ∧
      fails sys.json bad m' = false ∧
      (m'.pending = true ∨ m'.publishedAt.isSome = true) := by
  induction n generalizing b m with
  | zero => exact ⟨m, hm, rfl, hok, hst⟩
  | succ n ih =>
    obtain ⟨f, hrows, hround⟩ := b.round sys bad clock
    have hst' : (f m).pending = true ∨ (f m).publishedAt.isSome = true := by
      rcases hround.cases hm with ⟨-, heq⟩ | ⟨hb, -⟩
      · rw [heq]
        exact hst
      · exact .inr (hround.published hb hok)
    obtain ⟨m', hm', hid, hok', hst''⟩ := ih (b.pass sys bad clock)
      (by rw [hrows]; exact List.mem_map_of_mem hm) ((hround.fails_eq hm).trans hok) hst'
    exact ⟨m', hm', hid.trans (hround.id_eq hm), hok', hst''⟩

/-- Without a limit on failures, a row with a batch of failing rows ahead of it is not reached. -/
theorem blocked_stays (hmax : (sys.relay leader).maxAttempts = 0) (n : Nat)
    (b : Backlog) {m : Row} (hm : m ∈ b.st.rows) (hp : m.pending = true)
    (hblock : (sys.relay leader).batchSize ≤
      olderFailing sys.json bad b.st.rows m.id) :
    m ∈ (b.passes sys bad clock n).st.rows := by
  induction n generalizing b with
  | zero => exact hm
  | succ n ih =>
    obtain ⟨f, hrows, hround⟩ := b.round sys bad clock
    have hno : m ∉ batch (sys.relay leader) b.st.rows := fun hb => by
      have hlt := (mem_batch_iff b.ids_nodup hm hp).mp hb
      have hle : olderFailing sys.json bad b.st.rows m.id ≤
          b.st.rows.countP (fun a => a.pending && decide (a.id < m.id)) :=
        List.countP_mono_left fun a _ ha => by
          simp only [Bool.and_eq_true] at ha ⊢
          exact ⟨ha.1.1, ha.2⟩
      omega
    refine ih (b.pass sys bad clock) ?_ ?_
    · rw [hrows]
      exact List.mem_map.mpr ⟨m, hm, hround.rest m hm hno⟩
    · rw [hrows, hround.olderFailing_eq hmax]
      exact hblock

variable {clock}

theorem Backlog.not_published (b : Backlog) {m : Row} (hm : m ∈ b.st.rows)
    (hp : m.pending = true) : ¬ b.Published m.id := by
  rintro ⟨m', hm', hid, hpub⟩
  rw [List.inj_on_of_nodup_map b.ids_nodup hm' hm hid, (pending_iff.mp hp).1] at hpub
  cases hpub

/-- Every message that can be published is published after some number of passes, exactly if
failures are limited or fewer than a batch of failing messages are older than each of them. -/
theorem drains_iff (b : Backlog) :
    (∃ n, ∀ m ∈ b.st.rows, m.pending = true → fails sys.json bad m = false →
      (b.passes sys bad clock n).Published m.id) ↔
    0 < (sys.relay leader).maxAttempts ∨
      ∀ m ∈ b.st.rows, m.pending = true → fails sys.json bad m = false →
        olderFailing sys.json bad b.st.rows m.id < (sys.relay leader).batchSize := by
  constructor
  · rintro ⟨n, hn⟩
    by_contra hblock
    rw [not_or] at hblock
    obtain ⟨hmax, hroom⟩ := hblock
    refine hroom fun m hm hp hok => ?_
    by_contra hle
    exact (b.passes sys bad clock n).not_published
      (blocked_stays clock (by omega) n b hm hp (by omega)) hp (hn m hm hp hok)
  · intro h
    obtain ⟨n, hn⟩ := exists_drained clock b h
    refine ⟨n, fun m hm hp hok => ?_⟩
    obtain ⟨m', hm', hid, hok', hst⟩ := healthy_kept clock n b hm hok (.inl hp)
    refine ⟨m', hm', hid, hst.resolve_left fun hp' => ?_⟩
    rw [hn m' hm' hp'] at hok'
    cases hok'

/-! ### A blocked backlog

A relay that takes one row at a time and has no limit on failures, and a refused
row ahead of a good one. -/

def oneByOne : System where
  json := sampleJSON
  dialect := "sqlite"
  opts _ := [.withBatchSize 1]

def refusedRow : Row := { id := 1, subject := "orders.created", payload := [7] }

def goodRow : Row := { id := 2, subject := "orders.shipped", payload := [8] }

def poisoned : Backlog where
  st :=
    { rows := [refusedRow, goodRow]
      ledger := [⟨goodRow, 2, .committed⟩, ⟨refusedRow, 1, .committed⟩] }
  ids_nodup := by decide
  no_txs _ := rfl

theorem refusedRow_enqueued : enqueue sampleJSON true background
    { subject := "orders.created", data := [7] } = .ok { refusedRow with id := 0 } := rfl

theorem goodRow_enqueued : enqueue sampleJSON true background
    { subject := "orders.shipped", data := [8] } = .ok { goodRow with id := 0 } := rfl

theorem atRest_poisoned : AtRest oneByOne poisoned.st := by
  have hempty : AtRest oneByOne {} := .init rfl
  have hfirst := hempty.enqueue 1 1 refusedRow_enqueued List.not_mem_nil
  have hone : AtRest oneByOne
      { rows := [refusedRow], ledger := [⟨refusedRow, 1, .committed⟩] } :=
    hfirst.env (.commit 1)
  have hsecond := hone.enqueue 2 2 goodRow_enqueued (by decide)
  exact hsecond.env (.commit 2)

/-- One failing row blocks a batch of one. -/
theorem poisoned_blocks : AtRest oneByOne poisoned.st ∧
    ¬ ∃ n, ∀ m ∈ poisoned.st.rows, m.pending = true →
      fails oneByOne.json (· == 1) m = false →
      (poisoned.passes oneByOne (· == 1) (fun _ => 0) n).Published m.id := by
  refine ⟨atRest_poisoned, fun ⟨n, hn⟩ => ?_⟩
  have hmem : goodRow ∈ (poisoned.passes oneByOne (· == 1) (fun _ => 0) n).st.rows :=
    blocked_stays _ (by decide) n poisoned (by decide) (by decide) (by decide)
  exact Backlog.not_published _ hmem (by decide)
    (hn goodRow (by decide) (by decide) (by decide))

end Passes

end Microjet.Outbox
