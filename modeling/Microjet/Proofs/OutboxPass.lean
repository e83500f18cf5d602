import Microjet.Proofs.OutboxInv

/-!
# One pass among others

What protects a pass is ownership: on the locked path a relay owns the rows its transaction has
locked, on the lock-free path the one publishing relay owns all of them. Nobody touches a
pending row they do not own (`Guar`), so the copies a pass holds stay true (`Seen`). `Loop` is
the invariant of `drain` for both paths, and `outbox_sound` collects the result.
-/

namespace Microjet.Outbox

open Errorx Messaging Conc

/-! ## Ownership -/

/-- The relay owns the row. -/
def Owns (sys : System) (s : St) (t : Tid) (id : Nat) : Prop :=
  if sys.locking then ∃ tx, s.txs t = some tx ∧ id ∈ tx.locks else t = leader

variable {id : Nat}

variable {sys : System}

theorem Owns.locked {s : St} {t : Tid} {tx : Tx} (hl : sys.locking = true)
    (htx : s.txs t = some tx) (hid : id ∈ tx.locks) :
    Owns sys s t id := by
  rw [Owns, if_pos hl]
  exact ⟨tx, htx, hid⟩

theorem Owns.alone {s : St} (hl : sys.locking = false) :
    Owns sys s leader id := by
  rw [Owns, if_neg (by simp [hl])]

theorem Owns.unique {s : St} (h : Inv sys s) {t u : Tid} (ht : Owns sys s t id)
    (hu : Owns sys s u id) : t = u := by
  rw [Owns] at ht hu
  split at ht
  · next hl =>
      rw [if_pos hl] at hu
      obtain ⟨tx, htx, hid⟩ := ht
      obtain ⟨tx', htx', hid'⟩ := hu
      by_contra hne
      exact h.locks.disjoint t u tx tx' hne htx htx' id hid hid'
  · next hl =>
      rw [if_neg hl] at hu
      exact ht.trans hu.symm

/-- What a step of relay `t` may do. -/
structure Guar (sys : System) (t : Tid) (s s' : St) : Prop where
  txs : ∀ u, u ≠ t → s'.txs u = s.txs u
  runs : ∀ u, u ≠ t → s'.runs u = s.runs u
  rows : ∀ m ∈ s.rows, m.pending = true → ¬ Owns sys s t m.id → m ∈ s'.rows
  hist : ∃ new, s'.hist = new ++ s.hist ∧ ∀ e ∈ new, e.pass.relay = t ∧
    ∀ id, e.hands id = true → Owns sys s t id

/-- What the domain code may do. -/
structure EnvGuar (s s' : St) : Prop where
  txs : s'.txs = s.txs
  runs : s'.runs = s.runs
  rows : s.rows ⊆ s'.rows
  hist : s'.hist = s.hist

/-- What relay `t` sees of the steps of others. -/
structure Seen (sys : System) (t : Tid) (s s' : St) : Prop where
  txs : s'.txs t = s.txs t
  runs : s'.runs t = s.runs t
  rows : ∀ m ∈ s.rows, m.pending = true → Owns sys s t m.id → m ∈ s'.rows
  hist : ∃ new, s'.hist = new ++ s.hist ∧ ∀ e ∈ new, e.pass.relay ≠ t ∧
    ∀ id, Owns sys s t id → e.hands id = false

/-- The invariant, who may do what, what a job leaves, and that an idle relay has no transaction. -/
def discipline (sys : System) : Discipline Tid St Result where
  inv := Inv sys
  guar u s s' :=
    match u with
    | some t => Guar sys t s s'
    | none => EnvGuar s s'
  post t a s := s.txs t = none ∧
    match a with
    | .published n _ => n = (markedIds (s.pass t) s.hist).length
    | .pruned _ _ => True
  idle t s := s.txs t = none

section Steps

variable {sys : System} {s s' : St} {t u : Tid}

theorem Guar.seen (h : Inv sys s) (hut : u ≠ t) (hg : Guar sys u s s') :
    Seen sys t s s' where
  txs := hg.txs t hut.symm
  runs := hg.runs t hut.symm
  rows := fun m hm hp ho => hg.rows m hm hp fun hu => hut (hu.unique h ho)
  hist := by
    obtain ⟨new, hhist, hnew⟩ := hg.hist
    refine ⟨new, hhist, fun e he => ⟨fun heq => hut ?_, fun id ho => ?_⟩⟩
    · rw [← (hnew e he).1, heq]
    · by_contra hne
      rw [Bool.not_eq_false] at hne
      exact hut (((hnew e he).2 id hne).unique h ho)

theorem EnvGuar.seen (hg : EnvGuar s s') : Seen sys t s s' where
  txs := by rw [hg.txs]
  runs := by rw [hg.runs]
  rows := fun m hm _ _ => hg.rows hm
  hist := ⟨[], hg.hist, fun _ h => nomatch h⟩

theorem stable_of_seen {P : St → Prop}
    (h : ∀ s s', Seen sys t s s' → P s → P s') : Stable (discipline sys) t P := by
  intro u s s' hu hi _ hg hP
  cases u with
  | none => exact h s s' (EnvGuar.seen hg) hP
  | some u => exact h s s' (Guar.seen hi (fun heq => hu (by rw [heq])) hg) hP

theorem Seen.noAborts (h : Seen sys t s s') (hn : NoAborts s'.hist) :
    NoAborts s.hist := by
  obtain ⟨new, hhist, -⟩ := h.hist
  rw [hhist] at hn
  exact hn.of_append

theorem Seen.openPass (h : Seen sys t s s') {k : Nat} (ho : OpenPass ⟨t, k⟩ s.hist) :
    OpenPass ⟨t, k⟩ s'.hist := by
  obtain ⟨new, hhist, hnew⟩ := h.hist
  rw [hhist]
  intro e he hp
  rcases List.mem_append.mp he with he | he
  · exact absurd (congrArg PassId.relay hp) (hnew e he).1
  · exact ho e he hp

theorem Seen.markedIds (h : Seen sys t s s') (k : Nat) :
    markedIds ⟨t, k⟩ s'.hist = markedIds ⟨t, k⟩ s.hist := by
  obtain ⟨new, hhist, hnew⟩ := h.hist
  rw [hhist]
  exact markedIds_append_of_ne fun e he hp =>
    (hnew e he).1 (congrArg PassId.relay hp)

theorem Seen.accepted (h : Seen sys t s s') {id : Nat}
    (ha : s.hist.any (Event.accepts id) = true) :
    s'.hist.any (Event.accepts id) = true := by
  obtain ⟨new, hhist, -⟩ := h.hist
  rw [hhist, List.any_append, ha, Bool.or_true]

theorem Seen.count (h : Seen sys t s s') {id : Nat} (ho : Owns sys s t id) :
    s'.hist.countP (Event.accepts id) = s.hist.countP (Event.accepts id) := by
  obtain ⟨new, hhist, hnew⟩ := h.hist
  rw [hhist]
  exact countP_accepts_append fun e he => (hnew e he).2 id ho

theorem Guar.refl : Guar sys t s s where
  txs := fun _ _ => rfl
  runs := fun _ _ => rfl
  rows := fun _ hm _ _ => hm
  hist := ⟨[], rfl, fun _ h => nomatch h⟩

theorem Guar.setTx (h : Guar sys t s s') (x : Option Tx) :
    Guar sys t s { s' with txs := Function.update s.txs t x } :=
  { h with txs := fun _ hu => Function.update_of_ne hu _ _ }

theorem Guar.log {e : Event} (hp : e.pass.relay = t)
    (ho : ∀ id, e.hands id = true → Owns sys s t id) :
    Guar sys t s { s with hist := e :: s.hist } where
  txs := fun _ _ => rfl
  runs := fun _ _ => rfl
  rows := fun _ hm _ _ => hm
  hist := ⟨[e], rfl, fun e' he' => by
    rw [List.mem_singleton.mp he']
    exact ⟨hp, ho⟩⟩

theorem Guar.abort : Guar sys t s (s.abortTx t) :=
  (Guar.log (e := .aborted (s.pass t)) rfl fun _ h => nomatch h).setTx none

theorem Guar.wrote {k : Nat} {ws : List (Nat × Values)} (h : Wrote ⟨t, k⟩ ws s s')
    (ho : ∀ id ∈ ws.map Prod.fst, Owns sys s t id) : Guar sys t s s' where
  txs := fun _ _ => by rw [h.txs]
  runs := fun _ _ => by rw [h.runs]
  rows := fun m hm _ hno => h.rows m hm fun hid => hno (ho _ hid)
  hist := by
    obtain ⟨new, hhist, hnew⟩ := h.hist
    refine ⟨new, hhist, fun e he => ⟨by rw [(hnew e he).1], fun id hid => ?_⟩⟩
    rw [(hnew e he).2.2 id] at hid
    cases hid

end Steps

/-! ## The assertions of a pass -/

/-- Relay `t` is in its pass `k`. -/
structure InPass (t : Tid) (k : Nat) (s : St) : Prop where
  run : s.runs t = k
  openPass : OpenPass ⟨t, k⟩ s.hist

/-- The pass has begun, outside a transaction. -/
structure Begun (t : Tid) (k : Nat) (s : St) : Prop extends InPass t k s where
  tx_none : s.txs t = none
  unmarked : markedIds ⟨t, k⟩ s.hist = []

/-- The pass holds `tx`, whose writes may be committed, and has locked and not written `todo`. -/
structure Claimed (sys : System) (t : Tid) (k : Nat) (tx : Tx) (todo : List Row)
    (s : St) : Prop extends InPass t k s where
  tx_eq : s.txs t = some tx
  writes_nodup : (tx.writes.map Prod.fst).Nodup
  writes_ok : ∀ w ∈ tx.writes, w.1 ∈ tx.locks ∧ ∃ m ∈ s.rows, m.id = w.1 ∧
    m.pending = true ∧ WriteOk sys ⟨t, k⟩ s.hist m w.2
  todo_nodup : (todo.map Row.id).Nodup
  todo_ok : ∀ m ∈ todo, m ∈ s.rows ∧ m.pending = true ∧ m.id ∈ tx.locks ∧
    m.id ∉ tx.writes.map Prod.fst

/-- A locked row that was accepted is marked. -/
def Settled (tx : Tx) (hot : List Nat) (s : St) : Prop :=
  NoAborts s.hist → ∀ id ∈ tx.locks, id ∉ hot →
    id ∈ marksOf tx.writes ∨ s.hist.countP (Event.accepts id) = 0

/-- The only publishing relay without locks, with `todo` still to do and `n` rows marked. -/
structure Alone (t : Tid) (k : Nat) (todo : List Row) (n : Nat) (s : St) : Prop
    extends InPass t k s where
  is_leader : t = leader
  tx_none : s.txs t = none
  marked : n = (markedIds ⟨t, k⟩ s.hist).length
  todo_nodup : (todo.map Row.id).Nodup
  todo_ok : ∀ m ∈ todo, m ∈ s.rows ∧ m.pending = true

/-- The loop invariant of `drain`. A `hot` row was accepted by the broker and is not marked yet. -/
inductive Loop (sys : System) (t : Tid) (k : Nat) (todo : List Row) (n : Nat)
    (hot : List Nat) (s : St) : Prop where
  | locked (tx : Tx) (hl : sys.locking = true) (hc : Claimed sys t k tx todo s)
      (hs : Settled tx hot s) (hn : n = (marksOf tx.writes).length)
  | alone (hl : sys.locking = false) (ha : Alone t k todo n s)

/-- The pass gives up. -/
inductive Failed (sys : System) (t : Tid) (k : Nat) (todo : List Row) (n : Nat)
    (s : St) : Prop where
  | locked (hl : sys.locking = true) (hp : InPass t k s) (htx : (s.txs t).isSome)
  | alone (hl : sys.locking = false) (ha : Alone t k todo n s)

/-- What holds after a step that may fail. -/
def After {α : Type} (bad : St → Prop) (good : α → St → Prop) :
    Except Err α → St → Prop
  | .error _ => bad
  | .ok a => good a

/-- The pass is over and has marked `n` rows. -/
structure Done (t : Tid) (k n : Nat) (s : St) : Prop where
  run : s.runs t = k
  tx_none : s.txs t = none
  marked : n = (markedIds ⟨t, k⟩ s.hist).length

section Stability

variable {sys : System} {s s' : St} {t : Tid} {k n : Nat} {todo : List Row}
  {hot : List Nat} {tx : Tx}

theorem WriteOk.cons {e : Event} {m : Row} {v : Values} {p : PassId}
    {hist : List Event} (h : WriteOk sys p hist m v) : WriteOk sys p (e :: hist) m v := by
  rw [← List.singleton_append]
  exact h.append

theorem InPass.seen (hs : Seen sys t s s') (h : InPass t k s) : InPass t k s' where
  run := hs.runs.trans h.run
  openPass := hs.openPass h.openPass

theorem Begun.seen (hs : Seen sys t s s') (h : Begun t k s) : Begun t k s' where
  toInPass := h.toInPass.seen hs
  tx_none := hs.txs.trans h.tx_none
  unmarked := (hs.markedIds k).trans h.unmarked

theorem Done.seen (hs : Seen sys t s s') (h : Done t k n s) : Done t k n s' where
  run := hs.runs.trans h.run
  tx_none := hs.txs.trans h.tx_none
  marked := by rw [hs.markedIds]; exact h.marked

theorem WriteOk.seen {m : Row} {v : Values} {p : PassId} (hs : Seen sys t s s')
    (h : WriteOk sys p s.hist m v) : WriteOk sys p s'.hist m v := by
  obtain ⟨new, hhist, -⟩ := hs.hist
  rw [hhist]
  exact h.append

theorem Claimed.owns (hl : sys.locking = true) (h : Claimed sys t k tx todo s)
    {id : Nat} (hid : id ∈ tx.locks) : Owns sys s t id :=
  .locked hl h.tx_eq hid

theorem Claimed.seen (hl : sys.locking = true) (hs : Seen sys t s s')
    (h : Claimed sys t k tx todo s) : Claimed sys t k tx todo s' where
  toInPass := h.toInPass.seen hs
  tx_eq := hs.txs.trans h.tx_eq
  writes_nodup := h.writes_nodup
  writes_ok := fun w hw => by
    obtain ⟨hlock, m, hm, hid, hp, hok⟩ := h.writes_ok w hw
    exact ⟨hlock, m, hs.rows m hm hp (hid ▸ h.owns hl hlock), hid, hp, hok.seen hs⟩
  todo_nodup := h.todo_nodup
  todo_ok := fun m hm => by
    obtain ⟨hrow, hp, hlock, hno⟩ := h.todo_ok m hm
    exact ⟨hs.rows m hrow hp (h.owns hl hlock), hp, hlock, hno⟩

theorem Settled.seen (hl : sys.locking = true) (htx : s.txs t = some tx)
    (hs : Seen sys t s s') (h : Settled tx hot s) : Settled tx hot s' := by
  intro hn id hid hhot
  rw [hs.count (.locked hl htx hid)]
  exact h (hs.noAborts hn) id hid hhot

theorem Alone.seen (hl : sys.locking = false) (hs : Seen sys t s s')
    (h : Alone t k todo n s) : Alone t k todo n s' where
  toInPass := h.toInPass.seen hs
  is_leader := h.is_leader
  tx_none := hs.txs.trans h.tx_none
  marked := by rw [hs.markedIds]; exact h.marked
  todo_nodup := h.todo_nodup
  todo_ok := fun m hm =>
    have ho : Owns sys s t m.id := h.is_leader ▸ .alone hl
    ⟨hs.rows m (h.todo_ok m hm).1 (h.todo_ok m hm).2 ho, (h.todo_ok m hm).2⟩

theorem Loop.seen (hs : Seen sys t s s') (h : Loop sys t k todo n hot s) :
    Loop sys t k todo n hot s' := by
  cases h with
  | locked tx hl hc hset hn =>
    exact .locked tx hl (hc.seen hl hs) (hset.seen hl hc.tx_eq hs) hn
  | alone hl ha => exact .alone hl (ha.seen hl hs)

theorem Failed.seen (hs : Seen sys t s s') (h : Failed sys t k todo n s) :
    Failed sys t k todo n s' := by
  cases h with
  | locked hl hp htx => exact .locked hl (hp.seen hs) (by rw [hs.txs]; exact htx)
  | alone hl ha => exact .alone hl (ha.seen hl hs)

theorem Loop.stable : Stable (discipline sys) t (Loop sys t k todo n hot) :=
  stable_of_seen fun _ _ => Loop.seen

theorem Failed.stable : Stable (discipline sys) t (Failed sys t k todo n) :=
  stable_of_seen fun _ _ => Failed.seen

theorem Begun.stable : Stable (discipline sys) t (Begun t k) :=
  stable_of_seen fun _ _ => Begun.seen

theorem Done.stable : Stable (discipline sys) t (Done t k n) :=
  stable_of_seen fun _ _ => Done.seen

theorem After.stable {α : Type} {bad : St → Prop} {good : α → St → Prop}
    (hbad : Stable (discipline sys) t bad)
    (hgood : ∀ a, Stable (discipline sys) t (good a)) (a : Except Err α) :
    Stable (discipline sys) t (After bad good a) := by
  cases a with
  | error => exact hbad
  | ok a => exact hgood a

end Stability

/-! ## The questions of a pass -/

section Questions

variable {sys : System} {s s' : St} {t : Tid} {k n : Nat} {m : Row}
  {todo : List Row} {hot : List Nat} {tx : Tx} {v : Values}

theorem Loop.inPass (h : Loop sys t k todo n hot s) : InPass t k s := by
  cases h with
  | locked _ _ hc _ _ => exact hc.toInPass
  | alone _ ha => exact ha.toInPass

theorem InPass.pass_eq (h : InPass t k s) : s.pass t = ⟨t, k⟩ := by
  rw [St.pass, h.run]

theorem Loop.head (h : Loop sys t k (m :: todo) n hot s) :
    m ∈ s.rows ∧ m.pending = true ∧ Owns sys s t m.id := by
  cases h with
  | locked _ hl hc _ _ =>
    obtain ⟨hrow, hp, hlock, -⟩ := hc.todo_ok m List.mem_cons_self
    exact ⟨hrow, hp, hc.owns hl hlock⟩
  | alone hl ha =>
    obtain ⟨hrow, hp⟩ := ha.todo_ok m List.mem_cons_self
    exact ⟨hrow, hp, ha.is_leader ▸ .alone hl⟩

theorem Alone.sublist {todo' : List Row} (h : Alone t k todo n s)
    (hsub : todo'.Sublist todo) : Alone t k todo' n s :=
  { h with
    todo_nodup := (hsub.map _).nodup h.todo_nodup
    todo_ok := fun m hm => h.todo_ok m (hsub.subset hm) }

theorem Loop.failed {todo' : List Row} (h : Loop sys t k todo n hot s)
    (hsub : todo'.Sublist todo) : Failed sys t k todo' n s := by
  cases h with
  | locked _ hl hc _ _ => exact .locked hl hc.toInPass (by rw [hc.tx_eq]; rfl)
  | alone hl ha => exact .alone hl (ha.sublist hsub)

theorem message_eq {json : HeaderJSON} {msg : Message}
    (h : m.message json = .ok msg) : msg.subject = m.subject ∧ msg.data = m.payload := by
  unfold Row.message at h
  split at h
  · split at h
    · cases h
    · cases h; exact ⟨rfl, rfl⟩
  · cases h; exact ⟨rfl, rfl⟩

/-- Whatever the broker says, the row is still the pass's to finish; once accepted it is hot. -/
theorem step_publish {msg : Message} {ok : Bool} (hi : Inv sys s)
    (h : Loop sys t k (m :: todo) n [] s) (hmsg : m.message sys.json = .ok msg)
    (hs' : s' = { s with hist := .handed (s.pass t) m.id msg ok :: s.hist }) :
    Inv sys s' ∧ Guar sys t s s' ∧
      Loop sys t k (m :: todo) n (if ok then [m.id] else []) s' ∧
      (ok = true → s'.hist.any (Event.accepts m.id) = true) := by
  obtain ⟨hrow, hp, hown⟩ := h.head
  obtain ⟨hsubj, hdata⟩ := message_eq hmsg
  have hev : ∀ id, (Event.handed (s.pass t) m.id msg ok).hands id = true → m.id = id :=
    fun id hid => by simpa [Event.hands] using hid
  have hne : ∀ id, m.id ≠ id →
      (Event.handed (s.pass t) m.id msg ok).accepts id = false := fun id hid =>
    accepts_of_hands (by simpa [Event.hands] using hid)
  subst hs'
  refine ⟨⟨?_, ?_⟩, Guar.log rfl fun id hid => hev id hid ▸ hown, ?_, ?_⟩
  · obtain ⟨e, he, hc, hid, hsub, hpay⟩ := hi.core.inserted m hrow
    have hok : EventOk sys s.hist (.handed (s.pass t) m.id msg ok) :=
      ((hi.core.row_ok m hrow).of_pending hp).2
    exact hi.core.log hok ⟨e, he, hc, hid, hsubj.trans hsub.symm, hdata.trans hpay.symm⟩
      (Nat.le_refl _) (fun _ => rfl) (fun _ => rfl)
  · refine hi.locks.log (fun _ => rfl) fun hl hn id hid => ?_
    obtain rfl : m.id = id := by
      by_contra hne'
      rw [hne id hne'] at hid
      cases hid
    cases h with
    | locked tx _ hc hset _ =>
      obtain ⟨-, -, hlock, hno⟩ := hc.todo_ok m List.mem_cons_self
      have hmark : m.id ∉ marksOf tx.writes := fun hmem =>
        hno ((List.filter_sublist.map _).subset hmem)
      exact ⟨(hset hn _ hlock List.not_mem_nil).resolve_left hmark,
        fun hu => hu t tx hc.tx_eq hlock⟩
    | alone hl' _ => rw [hl] at hl'; cases hl'
  · have hopen : OpenPass ⟨t, k⟩ (.handed (s.pass t) m.id msg ok :: s.hist) :=
      h.inPass.openPass.cons rfl
    cases h with
    | locked tx hl hc hset hn =>
      refine .locked tx hl
        { hc with
          openPass := hopen
          writes_ok := fun w hw => by
            obtain ⟨hlock, m', hm', hid, hp', hok⟩ := hc.writes_ok w hw
            exact ⟨hlock, m', hm', hid, hp', hok.cons⟩ } ?_ hn
      intro hn' id hid hhot
      have hold := hset (NoAborts.of_cons hn') id hid List.not_mem_nil
      refine hold.imp_right fun hzero => ?_
      change List.countP _ (_ :: _) = 0
      rw [List.countP_cons_of_neg, hzero]
      by_cases heq : m.id = id
      · cases ok with
        | true => exact absurd heq (by simpa using fun h => hhot (by simp [h]))
        | false => simp [Event.accepts]
      · simp [hne id heq]
    | alone hl ha =>
      exact .alone hl
        { ha with
          openPass := hopen
          marked := ha.marked.trans
            (congrArg List.length (markedIds_cons_of_none rfl)).symm }
  · rintro rfl
    rw [List.any_cons, Event.accepts]
    simp

theorem Claimed.write (h : Claimed sys t k tx (m :: todo) s)
    (hw : WriteOk sys ⟨t, k⟩ s.hist m v) :
    Claimed sys t k ⟨m.id :: tx.locks, tx.writes ++ [(m.id, v)]⟩ todo
      { s with
        txs := Function.update s.txs t
          (some ⟨m.id :: tx.locks, tx.writes ++ [(m.id, v)]⟩) } := by
  obtain ⟨hrow, hp, hlock, hno⟩ := h.todo_ok m List.mem_cons_self
  have hnodup := h.todo_nodup
  rw [List.map_cons, List.nodup_cons] at hnodup
  exact
    { run := h.run
      openPass := h.openPass
      tx_eq := Function.update_self _ _ _
      writes_nodup := by
        rw [List.map_append, List.nodup_append]
        refine ⟨h.writes_nodup, List.nodup_singleton _, ?_⟩
        rintro a ha b hb rfl
        obtain rfl : a = m.id := by simpa using hb
        exact hno ha
      writes_ok := fun w hw' => by
        rcases List.mem_append.mp hw' with hw' | hw'
        · exact ⟨List.mem_cons_of_mem _ (h.writes_ok w hw').1, (h.writes_ok w hw').2⟩
        · rw [List.mem_singleton.mp hw']
          exact ⟨List.mem_cons_self, m, hrow, rfl, hp, hw⟩
      todo_nodup := hnodup.2
      todo_ok := fun m' hm' => by
        obtain ⟨hrow', hp', hlock', hno'⟩ := h.todo_ok m' (List.mem_cons_of_mem _ hm')
        refine ⟨hrow', hp', List.mem_cons_of_mem _ hlock', ?_⟩
        rw [List.map_append, List.mem_append, not_or]
        refine ⟨hno', fun hmem => hnodup.1 ?_⟩
        have hid : m'.id = m.id := by simpa using hmem
        exact hid ▸ List.mem_map_of_mem hm' }

theorem marksOf_singleton {id : Nat} :
    (marksOf [(id, v)]).length = v.publishedAt.toList.length := by
  cases hpub : v.publishedAt <;> simp [marksOf, hpub]

theorem step_update (hi : Inv sys s) (h : Loop sys t k (m :: todo) n hot s)
    (hw : WriteOk sys ⟨t, k⟩ s.hist m v)
    (hhot : ∀ id ∈ hot, id = m.id ∧ v.publishedAt.isSome)
    {a : Except Err Nat} (hex : exec t (.update v m.id) s a s') :
    Inv sys s' ∧ Guar sys t s s' ∧
      After (Failed sys t k todo n)
        (fun _ => Loop sys t k todo (n + v.publishedAt.toList.length) []) a s' := by
  cases a with
  | error e =>
    obtain rfl : s' = s := hex
    exact ⟨hi, .refl, h.failed (List.sublist_cons_self _ _)⟩
  | ok c =>
    obtain ⟨hfree, -, hs'⟩ := hex
    cases h with
    | locked tx hl hc hset hn =>
      -- inside a transaction the write waits for the commit: only the locks grow
      rw [hc.tx_eq] at hs'
      subst hs'
      have hgrow : Locks sys { s with
          txs := Function.update s.txs t
            (some ⟨m.id :: tx.locks, tx.writes ++ [(m.id, v)]⟩) } :=
        hi.locks.grow hc.tx_eq (fun id hid => List.mem_cons_of_mem _ hid) (fun id hid => by
          rcases List.mem_cons.mp hid with rfl | hid
          · exact hfree
          · rintro ⟨u, txu, hut, htxu, hid'⟩
            exact hi.locks.disjoint t u tx txu hut.symm hc.tx_eq htxu id hid hid')
      refine ⟨⟨hi.core.setTxs _, hgrow⟩, Guar.refl.setTx _,
        .locked _ hl (hc.write hw) (fun hn' id hid _ => ?_) ?_⟩
      · rw [marksOf_append, List.mem_append]
        by_cases hmem : id ∈ hot
        · obtain ⟨rfl, hpub⟩ := hhot id hmem
          exact .inl (.inr (by simp [marksOf, hpub]))
        · have hid' : id ∈ tx.locks := by
            rcases List.mem_cons.mp hid with rfl | hid
            · exact (hc.todo_ok m List.mem_cons_self).2.2.1
            · exact hid
          exact (hset hn' id hid' hmem).imp_left .inl
      · rw [marksOf_append, List.length_append, marksOf_singleton, hn]
    | alone hl ha =>
      -- outside one it is in the table at once, and the leader is the only writer
      rw [ha.tx_none] at hs'
      obtain ⟨hrow, hp⟩ := ha.todo_ok m List.mem_cons_self
      have hrun : (⟨t, k⟩ : PassId).nth ≤ s.runs t := ha.run.ge
      have hwrote : Wrote ⟨t, k⟩ [(m.id, v)] s (s.write ⟨t, k⟩ (m.id, v)) :=
        wrote_write hrow
      have hcore := hi.core.write hrow hp hw ha.openPass hrun
      obtain ⟨new, hhist, hnew⟩ := hwrote.hist
      have hnodup := ha.todo_nodup
      rw [List.map_cons, List.nodup_cons] at hnodup
      obtain rfl : s' = s.write ⟨t, k⟩ (m.id, v) := by
        rw [← ha.toInPass.pass_eq]
        exact hs'
      refine ⟨⟨hcore, .of_free hl fun u => ?_⟩, ?_, .alone hl ?_⟩
      · rw [hwrote.txs]
        exact hi.locks.free hl u
      · exact Guar.wrote hwrote fun id _ => ha.is_leader ▸ .alone hl
      · exact
          { run := by rw [hwrote.runs]; exact ha.run
            openPass := by
              rw [hhist]
              exact ha.openPass.append fun e he => (hnew e he).2.1
            is_leader := ha.is_leader
            tx_none := by rw [hwrote.txs]; exact ha.tx_none
            marked := by rw [hwrote.count, marksOf_singleton, ← ha.marked, Nat.add_comm]
            todo_nodup := hnodup.2
            todo_ok := fun m' hm' => by
              obtain ⟨hrow', hp'⟩ := ha.todo_ok m' (List.mem_cons_of_mem _ hm')
              refine ⟨hwrote.rows m' hrow' fun hmem => hnodup.1 ?_, hp'⟩
              have hid : m'.id = m.id := by simpa using hmem
              exact hid ▸ List.mem_map_of_mem hm' }

/-- Its transaction is open, with nothing in it. -/
def Opened (sys : System) (t : Tid) (k : Nat) (s : St) : Prop :=
  sys.locking = true ∧ Claimed sys t k {} [] s

theorem Opened.seen (hs : Seen sys t s s') (h : Opened sys t k s) :
    Opened sys t k s' := ⟨h.1, h.2.seen h.1 hs⟩

theorem Opened.failed (h : Opened sys t k s) : Failed sys t k todo n s :=
  .locked h.1 h.2.toInPass (by rw [h.2.tx_eq]; rfl)

theorem step_begin (hl : sys.locking = true) (hi : Inv sys s) (h : Begun t k s)
    {a : Except Err Unit} (hex : exec t .begin s a s') :
    Inv sys s' ∧ Guar sys t s s' ∧
      After (Begun t k) (fun _ => Opened sys t k) a s' := by
  cases a with
  | error e =>
    obtain rfl : s' = s := hex
    exact ⟨hi, .refl, h⟩
  | ok _ =>
    obtain rfl : s' = { s with txs := Function.update s.txs t (some {}) } := hex
    refine ⟨⟨hi.core.setTxs _, hi.locks.begin hl h.tx_none ?_⟩, Guar.refl.setTx _, hl, ?_⟩
    · rw [h.toInPass.pass_eq]
      exact h.unmarked
    · exact
        { run := h.run
          openPass := h.openPass
          tx_eq := Function.update_self _ _ _
          writes_nodup := List.nodup_nil
          writes_ok := fun _ hw => nomatch hw
          todo_nodup := List.nodup_nil
          todo_ok := fun _ hm => nomatch hm }

variable {a : Except Err (List Row)}

/-- What it returns was nobody's, so unless something was rolled back it was not accepted before. -/
theorem step_findLocked (hi : Inv sys s) (h : Opened sys t k s) {limit : Nat}
    (hex : exec t (.find ⟨Row.pending, limit, true⟩) s a s') :
    Inv sys s' ∧ Guar sys t s s' ∧
      After (Failed sys t k [] 0) (fun rows => Loop sys t k rows 0 []) a s' := by
  obtain ⟨hl, hc⟩ := h
  cases a with
  | error e =>
    obtain rfl : s' = s := hex
    exact ⟨hi, .refl, Opened.failed ⟨hl, hc⟩⟩
  | ok rows =>
    obtain ⟨skip, hskip, hrows, hs'⟩ := hex
    have hview : s.view t = s.rows := by rw [St.view, hc.tx_eq]; rfl
    rw [hview] at hrows
    rw [St.lock, hc.tx_eq] at hs'
    have hmem : ∀ m ∈ rows, m ∈ s.rows ∧ m.id ∉ skip ∧ m.pending = true := by
      intro m hm
      rw [hrows] at hm
      obtain ⟨hvis, hpend⟩ := mem_eval hm
      obtain ⟨hrow, hno⟩ := List.mem_filter.mp hvis
      exact ⟨hrow, of_decide_eq_true hno, hpend⟩
    have hlocks : ∀ id ∈ rows.map Row.id ++ [], ∃ m ∈ rows, m.id = id := fun id hid => by
      rw [List.append_nil] at hid
      exact List.mem_map.mp hid
    have hfree : ∀ m ∈ rows, ¬ s.LockedElsewhere t m.id := fun m hm hlocked =>
      (hmem m hm).2.1 (hskip _ hlocked)
    subst hs'
    refine ⟨⟨hi.core.setTxs _, hi.locks.grow hc.tx_eq (fun _ hid => nomatch hid) ?_⟩,
      Guar.refl.setTx _,
      .locked ⟨rows.map Row.id ++ [], []⟩ hl ?_ (fun hn id hid _ => .inr ?_) rfl⟩
    · intro id hid
      obtain ⟨m, hm, rfl⟩ := hlocks id hid
      exact hfree m hm
    · exact
        { run := hc.run
          openPass := hc.openPass
          tx_eq := Function.update_self _ _ _
          writes_nodup := List.nodup_nil
          writes_ok := fun _ hw => nomatch hw
          todo_nodup := by
            rw [hrows]
            exact eval_nodup ((List.filter_sublist.map _).nodup hi.core.rows_nodup)
          todo_ok := fun m hm => ⟨(hmem m hm).1, (hmem m hm).2.2,
            List.mem_append_left _ (List.mem_map_of_mem hm), List.not_mem_nil⟩ }
    · obtain ⟨m, hm, rfl⟩ := hlocks id hid
      refine hi.locks.unsent hl hn m (hmem m hm).1 (hmem m hm).2.2 fun u tx htx hlock => ?_
      by_cases hut : u = t
      · rw [hut, hc.tx_eq] at htx
        cases htx
        cases hlock
      · exact hfree m hm ⟨u, tx, hut, htx, hlock⟩

theorem step_find (hl : sys.locking = false) (ht : t = leader) (hi : Inv sys s)
    (h : Begun t k s) {limit : Nat} (hex : exec t (.find ⟨Row.pending, limit, false⟩) s a s') :
    Inv sys s' ∧ Guar sys t s s' ∧
      After (Failed sys t k [] 0) (fun rows => Loop sys t k rows 0 []) a s' := by
  have halone : ∀ rows : List Row, (rows.map Row.id).Nodup →
      (∀ m ∈ rows, m ∈ s.rows ∧ m.pending = true) → Alone t k rows 0 s :=
    fun rows hnodup hok =>
      { toInPass := h.toInPass
        is_leader := ht
        tx_none := h.tx_none
        marked := by rw [h.unmarked]; rfl
        todo_nodup := hnodup
        todo_ok := hok }
  cases a with
  | error e =>
    obtain rfl : s' = s := hex
    exact ⟨hi, .refl, .alone hl (halone [] List.nodup_nil fun _ hm => nomatch hm)⟩
  | ok rows =>
    obtain ⟨hrows, rfl⟩ : rows = Query.eval ⟨Row.pending, limit, false⟩ (s.view t) ∧
      s' = s := hex
    have hview : s'.view t = s'.rows := by rw [St.view, h.tx_none]
    rw [hview] at hrows
    refine ⟨hi, .refl, .alone hl (halone rows ?_ fun m hm => ?_)⟩
    · rw [hrows]
      exact eval_nodup hi.core.rows_nodup
    · rw [hrows] at hm
      exact mem_eval hm

theorem step_abort (hi : Inv sys s) (h : InPass t k s) (htx : (s.txs t).isSome) :
    Inv sys (s.abortTx t) ∧ Guar sys t s (s.abortTx t) ∧ Done t k 0 (s.abortTx t) := by
  refine ⟨hi.abort htx, .abort, h.run, Function.update_self _ _ _, ?_⟩
  have hunmarked := hi.locks.unmarked t htx
  rw [h.pass_eq] at hunmarked
  exact (congrArg List.length ((markedIds_cons_of_none rfl).trans hunmarked)).symm

theorem step_commit (hi : Inv sys s) (hl : sys.locking = true)
    (h : Loop sys t k [] n [] s) {a : Except Err Unit} (hex : exec t .commit s a s') :
    Inv sys s' ∧ Guar sys t s s' ∧
      After (Done t k 0) (fun _ => Done t k n) a s' := by
  cases h with
  | alone hl' _ => rw [hl] at hl'; cases hl'
  | locked tx _ hc hset hn =>
    cases a with
    | error e =>
      obtain rfl : s' = s.abortTx t := hex
      exact step_abort hi hc.toInPass (by rw [hc.tx_eq]; rfl)
    | ok _ =>
      obtain ⟨tx', htx', rfl⟩ := hex
      obtain rfl : tx = tx' := Option.some.inj (hc.tx_eq.symm.trans htx')
      have hpass := hc.toInPass.pass_eq
      obtain ⟨hcore, hwrote⟩ := hi.core.writes hc.writes_nodup
        (fun w hw => (hc.writes_ok w hw).2) hc.openPass hc.run.ge
      have hunmarked := hi.locks.unmarked t (by rw [hc.tx_eq]; rfl)
      rw [hpass] at hunmarked
      unfold St.commitTx
      rw [hpass]
      refine ⟨⟨hcore.setTxs _, hi.locks.commit hc.tx_eq (hpass ▸ hwrote) ?_⟩,
        (Guar.wrote hwrote fun id hid => ?_).setTx none, ?_⟩
      · exact fun _ hno id hid => hset hno id hid List.not_mem_nil
      · obtain ⟨w, hw, rfl⟩ := List.mem_map.mp hid
        exact hc.owns hl (hc.writes_ok w hw).1
      · refine ⟨by rw [hwrote.runs]; exact hc.run, Function.update_self _ _ _, ?_⟩
        rw [hwrote.count, hunmarked, hn]
        rfl

end Questions

/-! ## The programs -/

section Programs

variable {sys : System} {t : Tid} {k n : Nat} {m : Row} {todo : List Row}
  {hot : List Nat} {β : Type} {P : St → Prop}

theorem ok_silent (op : Op) (hop : ∀ s a s', exec t op s a s' → s' = s) {Q : β → St → Prop}
    {f : Ans op → Code β} (hP : Stable (discipline sys) t P)
    (h : ∀ a, Ok (machine sys) (discipline sys) t (f a) P Q) :
    Ok (machine sys) (discipline sys) t (Prog.ask op >>= f) P Q :=
  Ok.ask (fun _ => P) (fun _ => hP)
    (fun s a s' hi hPs hex => by
      obtain rfl : s' = s := hop s a s' hex
      exact ⟨hi, Guar.refl, hPs⟩) h

def Written (sys : System) (t : Tid) (k : Nat) (todo : List Row) (n : Nat) :
    Option Err → St → Prop
  | none => Loop sys t k todo n []
  | some _ => Failed sys t k todo n

theorem ok_recordWrite {v : Values} (hv : v.publishedAt = none)
    (hw : ∀ hist, WriteOk sys ⟨t, k⟩ hist m v) :
    Ok (machine sys) (discipline sys) t
      (do match ← updateMap v m.id with
          | .error err => return some err
          | .ok _ => return none)
      (Loop sys t k (m :: todo) n []) (Written sys t k todo n) := by
  refine Ok.ask (After (α := Nat) (Failed sys t k todo n) fun _ => Loop sys t k todo n [])
    (After.stable Failed.stable fun _ => Loop.stable) (fun s a s' hi h hex => ?_)
    fun a => ?_
  · have hstep := step_update hi h (hw _) (fun _ hid => nomatch hid) hex
    rw [hv] at hstep
    exact hstep
  · cases a with
    | error => exact Ok.ret fun _ _ h => h
    | ok => exact Ok.ret fun _ _ h => h

theorem ok_recordFailure (cause : Err) :
    Ok (machine sys) (discipline sys) t (recordFailure (sys.relay t) m cause)
      (Loop sys t k (m :: todo) n []) (Written sys t k todo n) := by
  unfold recordFailure
  dsimp only
  split
  · next hmax =>
      exact ok_silent .now (fun _ _ _ h => h) Loop.stable fun (now : Time) =>
        ok_recordWrite rfl fun _ => .fail _ (some now) (by simpa using hmax)
  · next hmax =>
      exact ok_recordWrite rfl fun _ => .fail _ none (by simpa using hmax)

def Tried (sys : System) (t : Tid) (k : Nat) (todo : List Row) (n : Nat) :
    Bool × Option Err → St → Prop
  | (ok, none) => Loop sys t k todo (if ok then n + 1 else n) []
  | (_, some _) => Failed sys t k todo n

theorem ok_failedAttempt (cause : Err) :
    Ok (machine sys) (discipline sys) t
      (do let e ← recordFailure (sys.relay t) m cause
          return (false, e))
      (Loop sys t k (m :: todo) n []) (Tried sys t k todo n) :=
  Ok.bind (ok_recordFailure cause) fun e => by
    cases e with
    | none => exact Ok.ret fun _ _ h => h
    | some => exact Ok.ret fun _ _ h => h

theorem ok_publishOne :
    Ok (machine sys) (discipline sys) t (publishOne sys.json (sys.relay t) m)
      (Loop sys t k (m :: todo) n []) (Tried sys t k todo n) := by
  unfold publishOne
  split
  · exact ok_failedAttempt _
  · next msg hmsg =>
      refine Ok.ask (fun a : Option Err => fun s =>
          Loop sys t k (m :: todo) n (if a.isNone then [m.id] else []) s ∧
          (a.isNone = true → s.hist.any (Event.accepts m.id) = true))
        (fun a => stable_of_seen fun s s' hs h =>
          ⟨h.1.seen hs, fun ha => hs.accepted (h.2 ha)⟩)
        (fun s a s' hi h hex => step_publish hi h hmsg hex) fun a => ?_
      cases a with
      | some err => exact (ok_failedAttempt err).weaken fun _ _ h => h.1
      | none =>
        refine ok_silent .now (fun _ _ _ h => h) (stable_of_seen fun s s' hs h =>
          ⟨h.1.seen hs, fun ha => hs.accepted (h.2 ha)⟩) fun now => ?_
        refine Ok.ask (After (α := Nat) (Failed sys t k todo n)
          fun _ => Loop sys t k todo (n + 1) [])
          (After.stable Failed.stable fun _ => Loop.stable)
          (fun s a s' hi h hex => ?_) fun a => ?_
        · exact step_update hi h.1 (.mark now (h.2 rfl))
            (fun id hid => ⟨List.mem_singleton.mp hid, rfl⟩) hex
        · cases a with
          | error => exact Ok.ret fun _ _ h => h
          | ok => exact Ok.ret fun _ _ h => h

/-- All rows of the batch are done. -/
def Drained (sys : System) (t : Tid) (k : Nat) : Nat × Option Err → St → Prop
  | (n, none) => Loop sys t k [] n []
  | (n, some _) => Failed sys t k [] n

/-- `drain` keeps the loop invariant; with locks a failed write ends it. -/
theorem ok_drain :
    Ok (machine sys) (discipline sys) t
      (drain sys.json (sys.relay t) sys.locking todo n)
      (Loop sys t k todo n []) (Drained sys t k) := by
  induction todo generalizing n with
  | nil => exact Ok.ret fun _ _ h => h
  | cons m todo ih =>
    refine ok_silent .ctxErr (fun _ _ _ h => h) Loop.stable fun c => ?_
    cases c with
    | some err => exact Ok.ret fun _ _ h => h.failed (List.nil_sublist _)
    | none =>
      refine Ok.bind ok_publishOne fun res => ?_
      obtain ⟨ok, err⟩ := res
      cases err with
      | none => exact ih
      | some err =>
        cases hl : sys.locking with
        | true =>
          refine Ok.ret fun s _ h => ?_
          cases h with
          | locked hl hp htx => exact .locked hl hp htx
          | alone hl' _ => rw [hl] at hl'; cases hl'
        | false =>
          rw [hl] at ih
          refine ih.weaken fun s _ h => ?_
          cases h with
          | locked hl' _ _ => rw [hl] at hl'; cases hl'
          | alone hl' ha => exact .alone hl' ha

/-- What the callback leaves is committed or rolled back, and then nothing is marked. -/
theorem ok_transaction (hl : sys.locking = true) {fn : Code (Nat × Option Err)}
    (hfn : Ok (machine sys) (discipline sys) t fn (Opened sys t k) (Drained sys t k)) :
    Ok (machine sys) (discipline sys) t (transaction 0 fn) (Begun t k)
      fun res => Done t k (if res.2.isSome then 0 else res.1) := by
  refine Ok.ask (After (α := Unit) (Begun t k) fun _ => Opened sys t k)
    (After.stable Begun.stable fun _ => stable_of_seen fun _ _ => Opened.seen)
    (fun s a s' hi h hex => step_begin hl hi h hex) fun a => ?_
  · cases a with
    | error e =>
      exact Ok.ret fun s _ h => ⟨h.run, h.tx_none, by rw [h.unmarked]; rfl⟩
    | ok _ =>
      refine Ok.bind hfn fun res => ?_
      obtain ⟨n, err⟩ := res
      cases err with
      | some err =>
        refine Ok.ask (fun _ => Done t k 0) (fun _ => Done.stable)
          (fun s a s' hi h hex => ?_) fun _ => Ok.ret fun _ _ h => h
        obtain rfl : s' = s.abortTx t := hex
        cases h with
        | locked _ hp htx => exact step_abort hi hp htx
        | alone hl' _ => rw [hl] at hl'; cases hl'
      | none =>
        refine Ok.ask (After (α := Unit) (Done t k 0) fun _ => Done t k n)
          (After.stable Done.stable fun _ => Done.stable)
          (fun s a s' hi h hex => step_commit hi hl h hex) fun a => ?_
        cases a with
        | error => exact Ok.ret fun _ _ h => h
        | ok => exact Ok.ret fun _ _ h => h

theorem ok_batch {skipLocked stop : Bool} (hstop : sys.locking = stop)
    (hfind : ∀ s (a : Except Err (List Row)) s', Inv sys s → P s →
      exec t (.find ⟨Row.pending, (sys.relay t).batchSize, skipLocked⟩) s a s' →
      Inv sys s' ∧ Guar sys t s s' ∧
        After (Failed sys t k [] 0) (fun rows => Loop sys t k rows 0 []) a s') :
    Ok (machine sys) (discipline sys) t
      (do match ← pendingRows (sys.relay t) skipLocked with
          | .error err => return (0, some err)
          | .ok rows => drain sys.json (sys.relay t) stop rows 0)
      P (Drained sys t k) := by
  subst hstop
  refine Ok.ask
    (After (α := List Row) (Failed sys t k [] 0) fun rows => Loop sys t k rows 0 [])
    (After.stable Failed.stable fun _ => Loop.stable) hfind fun a => ?_
  cases a with
  | error => exact Ok.ret fun _ _ h => h
  | ok rows => exact ok_drain

theorem relay_locking : (sys.relay t).locking = sys.locking := by
  have h : ∀ (opts : List RelayOption) (r : Relay),
      (opts.foldl RelayOption.apply r).locking = r.locking := by
    intro opts
    induction opts with
    | nil => exact fun _ => rfl
    | cons o opts ih =>
      intro r
      rw [List.foldl_cons, ih]
      cases o <;> (rw [RelayOption.apply]; split <;> rfl)
  exact h _ _

/-- A whole pass, on either path: it returns the number of rows it marked. -/
theorem ok_publishPending (ht : sys.locking = true ∨ t = leader) :
    Ok (machine sys) (discipline sys) t (publishPending sys.json (sys.relay t))
      (Begun t k) fun res => Done t k res.1 := by
  rw [publishPending, relay_locking]
  cases hl : sys.locking with
  | true =>
    rw [if_pos rfl, publishPendingLocked]
    refine Ok.bind (ok_transaction hl
      (ok_batch hl fun s a s' hi h hex => step_findLocked hi h hex)) fun res => ?_
    obtain ⟨n, err⟩ := res
    cases err with
    | none => exact Ok.ret fun _ _ h => h
    | some => exact Ok.ret fun _ _ h => h
  | false =>
    rw [if_neg Bool.false_ne_true]
    have hlead : t = leader := ht.resolve_left (by rw [hl]; exact Bool.false_ne_true)
    refine (ok_batch hl fun s a s' hi h hex => step_find hl hlead hi h hex).post
      fun res s _ h => ?_
    have hdone : Alone t k [] res.1 s → Done t k res.1 s := fun ha =>
      ⟨ha.run, ha.tx_none, ha.marked⟩
    obtain ⟨n, err⟩ := res
    cases err with
    | none =>
      cases h with
      | locked _ hl' => rw [hl] at hl'; cases hl'
      | alone _ ha => exact hdone ha
    | some err =>
      cases h with
      | locked hl' => rw [hl] at hl'; cases hl'
      | alone _ ha => exact hdone ha

theorem ok_passJob (ht : sys.locking = true ∨ t = leader) :
    Ok (machine sys) (discipline sys) t (passJob sys.json (sys.relay t))
      (Begun t k) ((discipline sys).post t) :=
  Ok.bind (ok_publishPending ht) fun res => Ok.ret fun s _ h => by
    refine ⟨h.tx_none, ?_⟩
    rw [St.pass, h.run]
    exact h.marked

theorem prunable_published {cutoff : Time} (h : prunable cutoff m = true) :
    m.publishedAt.isSome := by
  rw [prunable] at h
  cases hpub : m.publishedAt with
  | none => rw [hpub] at h; cases h
  | some => rfl

theorem ok_pruneJob :
    Ok (machine sys) (discipline sys) t (pruneJob (sys.relay t))
      (fun s => s.txs t = none) ((discipline sys).post t) := by
  have hidle : Stable (discipline sys) t fun s => s.txs t = none :=
    stable_of_seen fun s s' hs h => hs.txs.trans h
  unfold pruneJob prunePublished
  split
  · exact Ok.ret fun _ _ h => ⟨h, trivial⟩
  · refine ok_silent .now (fun _ _ _ h => h) hidle fun now => ?_
    refine Ok.ask (fun _ s => s.txs t = none) (fun _ => hidle)
      (fun s a s' hi h hex => ?_) fun a => ?_
    · change Except Err Nat at a
      cases a with
      | error e =>
        obtain rfl : s' = s := hex
        exact ⟨hi, .refl, h⟩
      | ok c =>
        obtain ⟨-, -, rfl⟩ := hex
        refine ⟨hi.delete fun m => prunable_published, ?_, h⟩
        exact
          { txs := fun _ _ => rfl
            runs := fun _ _ => rfl
            rows := fun m hm hp _ => List.mem_filter.mpr ⟨hm, by
              by_contra hdel
              rw [Bool.not_eq_true', Bool.not_eq_false] at hdel
              have := prunable_published hdel
              rw [(pending_iff.mp hp).1] at this
              cases this⟩
            hist := ⟨[], rfl, fun _ h => nomatch h⟩ }
    · cases a with
      | error => exact Ok.ret fun _ _ h => ⟨h, trivial⟩
      | ok => exact Ok.ret fun _ _ h => ⟨h, trivial⟩

end Programs

/-! ## The whole system -/

section System

variable {sys : System} {s s' : St} {t : Tid}

theorem begun_start (h : Inv sys s) (hnone : s.txs t = none) :
    Begun t (s.runs t + 1)
      { s with runs := Function.update s.runs t (s.runs t + 1) } := by
  have hnew : ∀ e ∈ s.hist, e.pass ≠ ⟨t, s.runs t + 1⟩ := fun e he heq => by
    have hle := h.core.started e he
    rw [heq] at hle
    exact absurd hle (by simp)
  exact
    { run := Function.update_self _ _ _
      openPass := fun e he hp => absurd hp (hnew e he)
      tx_none := hnone
      unmarked := markedIds_eq_nil hnew }

theorem guar_crash (h : Inv sys s) (hs : crash t s s') :
    Inv sys s' ∧ Guar sys t s s' ∧ s'.txs t = none := by
  unfold crash at hs
  split at hs
  · next hnone =>
      subst hs
      exact ⟨h, .refl, hnone⟩
  · next tx htx =>
      subst hs
      exact ⟨h.abort (by rw [htx]; rfl), .abort, Function.update_self _ _ _⟩

theorem Env.guar (h : Env sys.json s s') : EnvGuar s s' := by
  cases h with
  | enqueue => exact ⟨rfl, rfl, List.Subset.refl _, rfl⟩
  | commit x => exact ⟨rfl, rfl, List.subset_append_left _ _, rfl⟩
  | rollback x => exact ⟨rfl, rfl, List.Subset.refl _, rfl⟩

theorem outbox_sound (sys : System) : Sound (machine sys) (discipline sys) where
  idle_stable := fun t => stable_of_seen fun s s' hs h => hs.txs.trans h
  start := fun t p s s' hi hidle hs => by
    obtain ⟨rfl, hp⟩ := hs
    refine ⟨hi.start hidle, ⟨fun _ _ => rfl, fun u hu => Function.update_of_ne hu _ _,
      fun _ hm _ _ => hm, [], rfl, fun _ h => nomatch h⟩, ?_⟩
    rcases hp with ⟨rfl, ht⟩ | rfl
    · exact ⟨_, Begun.stable, begun_start hi hidle, ok_passJob ht⟩
    · exact ⟨_, stable_of_seen fun s s' hs h => hs.txs.trans h, hidle, ok_pruneJob⟩
  finish := fun t a s s' hi hpost hs => by
    cases a with
    | published n err =>
      obtain ⟨hnone, rfl⟩ := hpost
      obtain rfl := hs
      exact ⟨hi.finish, Guar.log rfl fun _ h => (nomatch h), hnone⟩
    | pruned n err =>
      obtain rfl := hs
      exact ⟨hi, Guar.refl, hpost.1⟩
  crash := fun t s s' hi hs => guar_crash hi hs
  env := fun s s' hi hs => ⟨hi.env hs, hs.guar⟩

theorem Reachable.inv (h : Reachable sys s) : Inv sys s := by
  obtain ⟨procs, h⟩ := h
  refine ((outbox_sound sys).reach (fun s hs => ?_) h).1
  obtain rfl : s = {} := hs
  exact ⟨inv_initial sys, fun _ => rfl⟩

end System

end Microjet.Outbox
